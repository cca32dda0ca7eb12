import TokenAuthority.Json.Quoted

/-!
# Writing objects

Whole numbers and objects, given as names with values that are written already. An
object is written without any space, or with a member a line.
-/

namespace TokenAuthority.Json

/-- A whole number. -/
def writtenInteger (n : Int) : List Char :=
  (toString n).toList

/-- Names with written values. -/
abbrev Members := List (String × List Char)

/-- The parts with a separator between them. -/
def joined (sep : List Char) (parts : List (List Char)) : List Char :=
  sep.intercalate parts

/-- An object without any space. -/
def compact (members : Members) : List Char :=
  '\x7b' :: joined [','] (members.map fun (name, value) => quoted name ++ ':' :: value) ++ ['\x7d']

/-- The end of a line, and the indent of the next. -/
def newLine (depth : Nat) : List Char :=
  '\n' :: List.replicate (2 * depth) ' '

/-- An object with a member a line, inside so many objects. -/
def spread (depth : Nat) (members : Members) : List Char :=
  '\x7b' :: newLine (depth + 1) ++
    joined (',' :: newLine (depth + 1))
      (members.map fun (name, value) => quoted name ++ ':' :: ' ' :: value) ++
    newLine depth ++ ['\x7d']

end TokenAuthority.Json
