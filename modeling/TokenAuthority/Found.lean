import TokenAuthority.Number.Binary64
import TokenAuthority.Text.Shown

/-!
# What was found instead

How an error tells a value that has the wrong kind, and the choices there would have
been. The notation that was read decides how floats are written.
-/

namespace TokenAuthority

/-- A value as far as an error tells it. -/
inductive Found where
  | null
  | boolean (value : Bool)
  | natural (value : Nat)
  /-- The number below zero with this distance from it. -/
  | negative (value : Nat)
  | float (value : Binary64)
  | text (value : String)
  | list
  | object
  deriving DecidableEq, Repr

/-- A whole number as an error tells it. -/
def Found.ofInt (n : Int) : Found :=
  if n < 0 then .negative n.natAbs else .natural n.natAbs

/-- A value in words. -/
def Found.words (float : Binary64 → String) : Found → String
  | null => "null"
  | boolean b => "boolean `" ++ (if b then "true" else "false") ++ "`"
  | natural n => "integer `" ++ toString n ++ "`"
  | negative n => "integer `-" ++ toString n ++ "`"
  | .float f => "floating point `" ++ float f ++ "`"
  | text s => "string " ++ Text.shown s
  | list => "sequence"
  | object => "map"

/-- The choices there are, in words. -/
def choiceWords (choices : List String) : String :=
  match choices.map fun c => "`" ++ c ++ "`" with
  | [] => "there are no variants"
  | [a] => a
  | [a, b] => a ++ " or " ++ b
  | cs => "one of " ++ ", ".intercalate cs

end TokenAuthority
