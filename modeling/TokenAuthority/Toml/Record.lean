import TokenAuthority.Toml.Item

/-!
# Records

A record is read from a table, entry by entry in the order of the document, into a draft
that holds a value for every field already. Entries that the record does not know do not
count. A record inside a document may also be given as an array of its first fields.
-/

namespace TokenAuthority.Toml

/-- A field of a record with draft `σ`. -/
structure Field (σ : Type) where
  name : String
  /-- Reads the field's item into a draft. -/
  read : σ → Item → Except Error σ

/-- A kind of record: its name and its fields. -/
structure Record (σ : Type) where
  name : String
  fields : List (Field σ)

/-! ### Values of a known kind -/

/-- A text; `expected` is what an error says should have been there. -/
def Item.textAs (expected : String) : Item → Except Error String
  | .text s => .ok s
  | item => .error (.wrongKind item.found expected)

/-- A text. -/
def Item.toText : Item → Except Error String := Item.textAs "a string"

/-- A whole number. -/
def Item.toInteger : Item → Except Error Int
  | .integer n => .ok n
  | item => .error (.wrongKind item.found "i64")

/-- A count. -/
def Item.toCount : Item → Except Error Nat
  | .integer n => if 0 ≤ n then .ok n.toNat else .error (.wrongValue (Found.ofInt n) "usize")
  | item => .error (.wrongKind item.found "usize")

/-- Whether an item is an empty array or table. -/
def Item.isEmpty : Item → Bool
  | .array items => items.isEmpty
  | .tables items => items.isEmpty
  | .table _ entries => entries.isEmpty
  | _ => false

/-- The choice that a name stands for. -/
def choiceOf {α : Type} (choices : List (String × α)) (name : String) : Except Error α :=
  match choices.lookup name with
  | some a => .ok a
  | none => .error (.unknownChoice name (choices.map (·.1)))

/-- One of a list of names, given as a text, or as the only key of a table whose item is
empty. -/
def Item.toChoice {α : Type} (choices : List (String × α)) : Item → Except Error α
  | .text s => choiceOf choices s
  | .table _ [(key, item)] => do
    let a ← choiceOf choices key
    if item.isEmpty then return a else throw .malformed
  | _ => .error .malformed

/-! ### Records -/

namespace Record

variable {σ : Type}

/-- A draft with one entry of a table read in. -/
def entry (r : Record σ) (draft : σ) (e : String × Item) : Except Error σ :=
  match r.fields.find? (·.name == e.1) with
  | some f => f.read draft e.2
  | none => .ok draft

/-- A draft with the entries of a table read in. -/
def ofEntries (r : Record σ) (draft : σ) (entries : Entries) : Except Error σ :=
  entries.foldlM r.entry draft

/-- A draft with the items of an array read in, in the order of the fields. -/
def ofItems (r : Record σ) (draft : σ) (items : List Item) : Except Error σ :=
  (r.fields.zip items).foldlM (fun draft (f, item) => f.read draft item) draft

/-- A draft with a table or an array read in. -/
def ofItem (r : Record σ) (draft : σ) : Item → Except Error σ
  | .table _ entries => r.ofEntries draft entries
  | .array items => r.ofItems draft items
  | .tables items => r.ofItems draft (items.map (Item.table .header))
  | item => .error (.wrongKind item.found ("struct " ++ r.name))

end Record

end TokenAuthority.Toml
