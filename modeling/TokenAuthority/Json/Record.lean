import TokenAuthority.Json.Value

/-!
# Records

A record has named fields in an order. It is given as an object, whose members may come
in any order and may have names that the record does not know, or as a list of the
values in the order of the fields. No field may be given twice, and a field that need
not be there may only be left out of a list at its end.
-/

namespace TokenAuthority.Json

/-- A field of a record that is read into a draft of type `σ`. -/
structure Field (σ : Type) where
  name : String
  /-- Whether a draft has the field already. -/
  given : σ → Bool
  /-- Whether a record may be without the field. -/
  optional : Bool
  /-- Reads the field's value into a draft. -/
  read : σ → Reader σ

/-- A kind of record: its name, its fields, and the draft that has none of them. -/
structure Record (σ : Type) where
  name : String
  fields : List (Field σ)
  blank : σ

namespace Record

variable {σ : Type}

/-- Reads a member's value, given the member's name and what stands behind it. -/
def member (r : Record σ) (draft : σ) (name : String) (bs : Bytes) : Except Error (σ × Bytes) :=
  match r.fields.find? (·.name == name) with
  | some f =>
    if f.given draft then .error (.duplicate f.name)
    else do
      let bs ← colon bs
      f.read draft bs
  | none => do
    let bs ← colon bs
    return (draft, ← pass bs)

/-- The first field that a draft must have and has not. -/
def lacking (r : Record σ) (draft : σ) : Option (Field σ) :=
  r.fields.find? fun f => !f.optional && !f.given draft

/-- A draft that has all fields it must have. -/
def complete (r : Record σ) (draft : σ) : Except Error σ :=
  match r.lacking draft with
  | some f => .error (.missing f.name)
  | none => .ok draft

/-- The members of an object up to its end; `first` says that none was read yet. -/
def members (r : Record σ) : Nat → Bool → σ → Bytes → Except Error (σ × Bytes)
  | 0, _, _, _ => .error .endInObject
  | fuel + 1, first, draft, bs =>
    match skipSpace bs with
    | [] => .error .endInObject
    | b :: rest =>
      if b = 0x7D then do return (← r.complete draft, rest)
      else if first then
        if b = quote then do
          let (name, rest) ← textBody rest
          let (draft, rest) ← r.member draft name rest
          r.members fuel false draft rest
        else .error .keyNotText
      else if b = 0x2C then
        match skipSpace rest with
        | [] => .error .endInValue
        | b :: rest =>
          if b = quote then do
            let (name, rest) ← textBody rest
            let (draft, rest) ← r.member draft name rest
            r.members fuel false draft rest
          else if b = 0x7D then .error .trailingComma
          else .error .keyNotText
      else .error .noCommaInObject

/-- What an error says a list should have been. -/
def asList (r : Record σ) : String :=
  "struct " ++ r.name ++ " with " ++ toString r.fields.length ++ " elements"

/-- The values of a list for the fields that remain, of which `seen` were read. -/
def elements (r : Record σ) : List (Field σ) → Nat → σ → Bytes → Except Error (σ × Bytes)
  | [], _, draft, bs =>
    match skipSpace bs with
    | [] => .error .endInList
    | b :: rest =>
      if b = 0x5D then .ok (draft, rest)
      else if b = 0x2C then
        .error (if (skipSpace rest).head? = some 0x5D then .trailingComma else .trailingCharacters)
      else .error .trailingCharacters
  | f :: fields, seen, draft, bs =>
    match skipSpace bs with
    | [] => .error .endInList
    | b :: rest =>
      if b = 0x5D then
        if f.optional then r.elements fields seen draft (b :: rest)
        else .error (.wrongLength seen r.asList)
      else if seen = 0 then do
        let (draft, rest) ← f.read draft (b :: rest)
        r.elements fields (seen + 1) draft rest
      else if b = 0x2C then
        match skipSpace rest with
        | [] => .error .endInValue
        | c :: rest =>
          if c = 0x5D then .error .trailingComma
          else do
            let (draft, rest) ← f.read draft (c :: rest)
            r.elements fields (seen + 1) draft rest
      else .error .noCommaInList

/-- A record, and what follows it. -/
def read (r : Record σ) : Reader σ := fun bs =>
  match skipSpace bs with
  | [] => .error .endInValue
  | b :: rest =>
    if b = 0x7B then r.members (rest.length + 1) true r.blank rest
    else if b = 0x5B then r.elements r.fields 0 r.blank rest
    else .error (wrong ("struct " ++ r.name) (b :: rest))

/-- The record that all of the octets stand for. -/
def readAll (r : Record σ) (bs : Bytes) : Except Error σ := do
  let (draft, rest) ← r.read bs
  if skipSpace rest = [] then return draft else throw .trailingCharacters

end Record

end TokenAuthority.Json
