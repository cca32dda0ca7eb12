import TokenAuthority.Toml.Item
import TokenAuthority.Toml.Lexical

/-!
# Documents

A document is read in two steps. The first gives its sections, the entries in front of
the first header and those behind each header; the second builds the table they
describe, and refuses a key or a table that is told twice.
-/

namespace TokenAuthority.Toml

/-! ### Keys and values -/

/-- A key, cut at its dots. -/
def key? : Nat → List Char → Option (List String × List Char)
  | 0, _ => none
  | fuel + 1, cs => do
    let (first, rest) ← simpleKey? (skipSpace cs)
    match skipSpace rest with
    | '.' :: rest =>
      let (others, rest) ← key? fuel rest
      return (first :: others, rest)
    | rest => return ([first], rest)

/-- How deeply arrays and inline tables may be nested, and how many parts a key may have. -/
def depthLimit : Nat := 79

/-- What follows a comma or else the closing character of a list. -/
def commaOr? (closing : Char) (cs : List Char) : Option (Bool × List Char) :=
  match cs with
  | c :: rest => if c = ',' then some (true, rest) else if c = closing then some (false, rest) else none
  | [] => none

mutual

/-- A value, in which arrays and inline tables may be nested up to a depth. -/
def value? : Nat → Nat → List Char → Option (Item × List Char)
  | 0, _, _ => none
  | fuel + 1, depth, cs =>
    match cs, depth with
    | '[' :: _, 0 => none
    | '{' :: _, 0 => none
    | '[' :: rest, depth + 1 => do
      let (items, rest) ← elements? fuel depth rest
      return (.array items, rest)
    | '{' :: rest, depth + 1 => do
      let rest := skipSpace rest
      match rest with
      | '}' :: rest => return (.table .inline [], rest)
      | _ =>
        let (pairs, rest) ← pairs? fuel depth rest
        let entries ← addEntries [] pairs
        return (.table .inline entries, rest)
    | '"' :: _, _ => do let (s, rest) ← text? cs; return (.text s, rest)
    | '\'' :: _, _ => do let (s, rest) ← text? cs; return (.text s, rest)
    | 't' :: 'r' :: 'u' :: 'e' :: rest, _ => some (.boolean true, rest)
    | 'f' :: 'a' :: 'l' :: 's' :: 'e' :: rest, _ => some (.boolean false, rest)
    | _, _ =>
      match dateTime? cs with
      | some rest => some (.dateTime, rest)
      | none =>
        match float? cs with
        | some (f, rest) => some (.float f, rest)
        | none =>
          match special? cs with
          | some (f, rest) => some (.float f, rest)
          | none => do let (n, rest) ← integer? cs; return (.integer n, rest)

/-- The elements of an array up to its end. -/
def elements? : Nat → Nat → List Char → Option (List Item × List Char)
  | 0, _, _ => none
  | fuel + 1, depth, cs => do
    let cs ← skipLines cs.length cs
    match cs with
    | ']' :: rest => return ([], rest)
    | _ =>
      let (item, rest) ← value? fuel depth cs
      let rest ← skipLines rest.length rest
      let (more, rest) ← commaOr? ']' rest
      if more then
        let (items, rest) ← elements? fuel depth rest
        return (item :: items, rest)
      else return ([item], rest)

/-- The entries of an inline table up to its end. -/
def pairs? : Nat → Nat → List Char → Option (List (List String × String × Item) × List Char)
  | 0, _, _ => none
  | fuel + 1, depth, cs => do
    let (entry, rest) ← entry? fuel depth cs
    let (more, rest) ← commaOr? '}' (skipSpace rest)
    if more then
      let (entries, rest) ← pairs? fuel depth rest
      return (entry :: entries, rest)
    else return ([entry], rest)

/-- A key, cut before its last part, and its value. -/
def entry? : Nat → Nat → List Char → Option ((List String × String × Item) × List Char)
  | 0, _, _ => none
  | fuel + 1, depth, cs => do
    let (keys, rest) ← key? depthLimit cs
    let rest ← char? '=' rest
    let (item, rest) ← value? fuel depth (skipSpace rest)
    return ((keys.dropLast, keys.getLastD "", item), rest)

end

/-! ### Sections -/

/-- The header of a section: the path of its table, and whether the brackets are double. -/
structure Header where
  double : Bool
  path : List String

/-- One line of a document that is not blank. -/
inductive Line where
  | header (header : Header)
  | entry (path : List String) (key : String) (item : Item)

/-- A line that is not blank, without its end. -/
def line? (cs : List Char) : Option (Line × List Char) :=
  match cs with
  | '[' :: '[' :: rest => do
    let (path, rest) ← key? depthLimit rest
    let rest ← char? ']' rest
    let rest ← char? ']' rest
    return (.header ⟨true, path⟩, rest)
  | '[' :: rest => do
    let (path, rest) ← key? depthLimit rest
    let rest ← char? ']' rest
    return (.header ⟨false, path⟩, rest)
  | _ => do
    let ((path, key, item), rest) ← entry? (4 * cs.length + 4) depthLimit cs
    return (.entry path key item, rest)

/-- The lines of a document. -/
def lines? : Nat → List Char → Option (List Line)
  | 0, _ => none
  | fuel + 1, cs => do
    let cs ← skipLines cs.length cs
    if cs = [] then return []
    let (line, rest) ← line? cs
    let rest ← lineEnd? rest
    let others ← lines? fuel rest
    return line :: others

/-! ### Tables -/

/-- A header and the entries behind it. -/
structure Section where
  header : Header
  entries : List (List String × String × Item)

/-- The entries in front of the first header, and the sections. -/
def sections : List Line → List (List String × String × Item) × List Section
  | [] => ([], [])
  | .entry path key item :: lines =>
    let (entries, others) := sections lines
    ((path, key, item) :: entries, others)
  | .header h :: lines =>
    let (entries, others) := sections lines
    ([], ⟨h, entries⟩ :: others)

/-- The table with a section added. A table that was only implied so far is taken up
with what it has; any other must be new. -/
def addSection (entries : Entries) (s : Section) : Option Entries :=
  let key := s.header.path.getLastD ""
  changeAt false
    (fun _ inner =>
      match s.header.double, inner.lookup key with
      | false, none => do
        return inner ++ [(key, .table .header (← addEntries [] s.entries))]
      | false, some (.table .implied given) => do
        return inner.filter (·.1 != key) ++ [(key, .table .header (← addEntries given s.entries))]
      | true, none => do
        return inner ++ [(key, .tables [← addEntries [] s.entries])]
      | true, some (.tables items) => do
        return replace key (.tables (items ++ [← addEntries [] s.entries])) inner
      | _, _ => none)
    s.header.path.dropLast .header entries

/-- The table that lines describe. -/
def build (lines : List Line) : Option Entries := do
  let (first, others) := sections lines
  others.foldlM addSection (← addEntries [] first)

/-- The table that a document describes. A mark of the octet order in front of it does
not count. -/
def read (text : String) : Except Error Entries :=
  let cs := match text.toList with
    | '\uFEFF' :: rest => rest
    | cs => cs
  match (lines? (cs.length + 1) cs).bind build with
  | some entries => .ok entries
  | none => .error .malformed

end TokenAuthority.Toml
