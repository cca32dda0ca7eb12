import TokenAuthority.Found
import TokenAuthority.Number.Shortest

/-!
# Items of a document

A document is a table: keys with items, in the order in which they were written. A
table remembers how it came about, because that decides what may still be added to it.
-/

namespace TokenAuthority.Toml

/-- How a table came about. -/
inductive Origin where
  /-- By a header of its own. -/
  | header
  /-- By the header of a table inside it. -/
  | implied
  /-- By a key with dots. -/
  | dotted
  /-- Between braces. -/
  | inline
  deriving DecidableEq, Repr

/-- A value or a table of a document. -/
inductive Item where
  | text (value : String)
  | integer (value : Int)
  | float (value : Binary64)
  | boolean (value : Bool)
  /-- A date, a time, or both; nothing asks which. -/
  | dateTime
  | array (items : List Item)
  | table (origin : Origin) (entries : List (String × Item))
  /-- The tables of one header in double brackets. -/
  | tables (items : List (List (String × Item)))

/-- Keys with items. -/
abbrev Entries := List (String × Item)

/-- What is wrong with a document. -/
inductive Error where
  /-- It does not follow the notation, or tells a key twice. -/
  | malformed
  | missing (field : String)
  | unknownChoice (choice : String) (choices : List String)
  | wrongKind (found : Found) (expected : String)
  | wrongValue (found : Found) (expected : String)
  deriving DecidableEq, Repr

/-- The cause in words. -/
def Error.reason : Error → String
  | malformed => "not a document"
  | missing f => "missing field `" ++ f ++ "`"
  | unknownChoice c cs => "unknown variant `" ++ c ++ "`, expected " ++ choiceWords cs
  | wrongKind f e => "invalid type: " ++ f.words Shortest.wide ++ ", expected " ++ e
  | wrongValue f e => "invalid value: " ++ f.words Shortest.wide ++ ", expected " ++ e

/-- The text of an error. -/
def Error.message (e : Error) : String :=
  "TOML parse error\n" ++ e.reason

/-- An item as an error tells it. -/
def Item.found : Item → Found
  | .text s => .text s
  | .integer n => Found.ofInt n
  | .float f => .float f
  | .boolean b => .boolean b
  | .dateTime => .object
  | .array _ => .list
  | .table _ _ => .object
  | .tables _ => .list

/-! ### Building tables -/

/-- Keys with items where one key's item is changed. -/
def replace (key : String) (item : Item) (entries : Entries) : Entries :=
  entries.map fun e => if e.1 == key then (key, item) else e

/-- Changes the entries at the end of a path of keys, making tables on the way; `change`
is told how the table came about. A table that was given a header, or stands between
braces, is closed to keys with dots, and braces are closed to headers as well. -/
def changeAt (dotted : Bool) (change : Origin → Entries → Option Entries) :
    List String → Origin → Entries → Option Entries
  | [], origin, entries => change origin entries
  | key :: path, _, entries =>
    let made := if dotted then Origin.dotted else .implied
    match entries.lookup key with
    | none => do
      let inner ← changeAt dotted change path made []
      return entries ++ [(key, .table made inner)]
    | some (.table origin inner) =>
      if origin = .inline ∨ (dotted ∧ origin = .header) then none
      else do
        let inner ← changeAt dotted change path origin inner
        return replace key (.table origin inner) entries
    | some (.tables items) => do
      let inner ← changeAt dotted change path .header (← items.getLast?)
      return replace key (.tables (items.dropLast ++ [inner])) entries
    | some _ => none

/-- Adds an item under a key that may have dots; no key is told twice. -/
def addEntry (entries : Entries) (path : List String × String × Item) : Option Entries :=
  changeAt true
    (fun origin inner =>
      if path.1 ≠ [] ∧ origin ≠ .dotted then none
      else if (inner.lookup path.2.1).isSome then none
      else some (inner ++ [(path.2.1, path.2.2)]))
    path.1 .header entries

/-- The table with the given entries besides those it has. -/
def addEntries (entries : Entries) (added : List (List String × String × Item)) :
    Option Entries :=
  added.foldlM addEntry entries

end TokenAuthority.Toml
