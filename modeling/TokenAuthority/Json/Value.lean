import TokenAuthority.Json.Pass

/-!
# Values of a known kind

Readers for the values that records hold: texts, whole numbers of 64 binary digits with
a sign, one of a list of names, and a text that may be absent. What stands there instead
is told by `wrongKind`.
-/

namespace TokenAuthority.Json

/-- A reader takes a value off the front. -/
abbrev Reader (α : Type) := Bytes → Except Error (α × Bytes)

/-- What stands in front, as an error tells it: the value itself may be malformed. -/
def found (bs : Bytes) : Except Error Found :=
  match bs with
  | [] => .error .noValue
  | b :: rest =>
    if b = 0x6E then do let _ ← word nullTail rest; return .null
    else if b = 0x74 then do let _ ← word trueTail rest; return .boolean true
    else if b = 0x66 then do let _ ← word falseTail rest; return .boolean false
    else if b = 0x2D then do let (n, _) ← number true rest; return n.found
    else if isDigit b then do let (n, _) ← number false bs; return n.found
    else if b = quote then do let (s, _) ← textBody rest; return .text s
    else if b = 0x5B then .ok .list
    else if b = 0x7B then .ok .object
    else .error .noValue

/-- The error of a value of the wrong kind. -/
def wrong (expected : String) (bs : Bytes) : Error :=
  match found bs with
  | .ok f => .wrongKind f expected
  | .error e => e

/-- A text; `expected` is what an error says should have been there. -/
def textAs (expected : String) : Reader String := fun bs =>
  match skipSpace bs with
  | [] => .error .endInValue
  | b :: rest => if b = quote then textBody rest else .error (wrong expected (b :: rest))

/-- A text. -/
def text : Reader String := textAs "a string"

/-- A text, or nothing where `null` stands. -/
def optionalText : Reader (Option String) := fun bs =>
  match skipSpace bs with
  | b :: rest =>
    if b = 0x6E then do return (none, ← word nullTail rest)
    else do
      let (s, rest) ← text (b :: rest)
      return (some s, rest)
  | [] => .error .endInValue

/-- The whole number of 64 binary digits with a sign that a number is. -/
def Number.toInt? : Number → Except Error Int
  | natural n => if n < 1 <<< 63 then .ok n else .error (.wrongValue (.natural n) "i64")
  | negative n => .ok (-n)
  | float f => .error (.wrongKind (.float f) "i64")

/-- A whole number. -/
def integer : Reader Int := fun bs =>
  match skipSpace bs with
  | [] => .error .endInValue
  | b :: rest =>
    if b = 0x2D then do
      let (n, rest) ← number true rest
      return (← n.toInt?, rest)
    else if isDigit b then do
      let (n, rest) ← number false (b :: rest)
      return (← n.toInt?, rest)
    else .error (wrong "i64" (b :: rest))

/-- The choice that a name stands for. -/
def choiceOf {α : Type} (choices : List (String × α)) (name : String) : Except Error α :=
  match choices.lookup name with
  | some a => .ok a
  | none => .error (.unknownChoice name (choices.map (·.1)))

/-- One of a list of names, given as a text or as an object with the name as its only
key and `null` as the value. -/
def choice {α : Type} (choices : List (String × α)) : Reader α := fun bs =>
  match skipSpace bs with
  | [] => .error .endInValue
  | b :: rest =>
    if b = 0x7B then do
      let (name, rest) ← textAs "variant identifier" rest
      let a ← choiceOf choices name
      let rest ← colon rest
      match skipSpace rest with
      | [] => throw .endInValue
      | b :: rest =>
        if b ≠ 0x6E then throw (wrong "unit" (b :: rest))
        let rest ← word nullTail rest
        match skipSpace rest with
        | [] => throw .endInObject
        | b :: rest => if b = 0x7D then return (a, rest) else throw .noValue
    else if b = quote then do
      let (name, rest) ← textBody rest
      return (← choiceOf choices name, rest)
    else .error .noValue

end TokenAuthority.Json
