import TokenAuthority.Number.Binary64

/-!
# The shortest decimal that reads back

Of the decimals that round to a given number of 64 bits, the one with the fewest digits,
and of those the one nearest to the number. Two layouts of it are written: positional,
and with an exponent.
-/

namespace TokenAuthority.Shortest

/-- The decimal `digits · 10 ^ exponent`. -/
structure Decimal where
  digits : Nat
  exponent : Int
  deriving DecidableEq, Repr

/-- Compares `a · 10 ^ i` with `n · 2 ^ j`. -/
def compareScaled (a : Nat) (i : Int) (n : Nat) (j : Int) : Ordering :=
  compare ((a * Nat.pow 10 i.toNat) <<< (-j).toNat) ((n <<< j.toNat) * Nat.pow 10 (-i).toNat)

/-- Whether a decimal rounds to `m · 2 ^ q`: it lies between the points halfway to the
neighbours, or on one of them if `m` is even. -/
def readsBack (m : Nat) (q : Int) (d : Decimal) : Bool :=
  let narrow := m == 1 <<< 52 && -1074 < q
  let low := compareScaled d.digits d.exponent (4 * m - (if narrow then 1 else 2)) (q - 2)
  let high := compareScaled d.digits d.exponent (4 * m + 2) (q - 2)
  let ends := m % 2 == 0
  (low == .gt || (ends && low == .eq)) && (high == .lt || (ends && high == .eq))

/-- The least `k` from the given one on, within so many steps, with `m · 2 ^ q < 10 ^ k`. -/
def scale (m : Nat) (q : Int) : Nat → Int → Int
  | 0, k => k
  | steps + 1, k => if compareScaled 1 k m q == .gt then k else scale m q steps (k + 1)

/-- The whole part of `m · 2 ^ q / 10 ^ e`. -/
def wholePart (m : Nat) (q e : Int) : Nat :=
  ((m <<< q.toNat) * Nat.pow 10 (-e).toNat) / (Nat.pow 10 e.toNat <<< (-q).toNat)

/-- The decimal for the grid of step `10 ^ e`, if one of the two neighbours on the grid
reads back; the nearer one if both do. -/
def onGrid (m : Nat) (q e : Int) : Option Decimal :=
  let below : Decimal := ⟨wholePart m q e, e⟩
  let above : Decimal := ⟨below.digits + 1, e⟩
  let middle := compareScaled (2 * below.digits + 1) e (2 * m) q
  match readsBack m q below, readsBack m q above with
  | true, true => some (if middle == .lt || (middle == .eq && below.digits % 2 == 1) then above else below)
  | true, false => some below
  | false, true => some above
  | false, false => none

/-- The first decimal found on finer and finer grids; at last the exact one. -/
def onGrids (m : Nat) (q e : Int) : Nat → Decimal
  | 0 => ⟨(m <<< q.toNat) * Nat.pow 5 (-q).toNat, min q 0⟩
  | n + 1 => (onGrid m q e).getD (onGrids m q (e - 1) n)

/-- A decimal without the zeros its digits end in. -/
def Decimal.strip (digits : Nat) (exponent : Int) : Decimal :=
  if digits = 0 then ⟨0, 0⟩
  else if digits % 10 = 0 then strip (digits / 10) (exponent + 1)
  else ⟨digits, exponent⟩
termination_by digits
decreasing_by omega

/-- The shortest decimal that rounds to `m · 2 ^ q`. -/
def decimal (m : Nat) (q : Int) : Decimal :=
  if m = 0 then ⟨0, 0⟩
  else
    let start := ((m.log2 : Int) + q) * 3 / 10 - 3
    let k := scale m q 60 start
    let d := onGrids m q (k - 1) 17
    Decimal.strip d.digits d.exponent

/-! ### Layouts -/

/-- A decimal without an exponent; a whole number has no point. -/
def positional (d : Decimal) : String :=
  let text := (toString d.digits).toList
  if 0 ≤ d.exponent then String.ofList (text ++ List.replicate d.exponent.toNat '0')
  else
    let places := (-d.exponent).toNat
    let filled := List.replicate (places + 1 - text.length) '0' ++ text
    String.ofList (filled.take (filled.length - places) ++ '.' :: filled.drop (filled.length - places))

/-- The exponent of a decimal's first digit. -/
def leading (d : Decimal) : Int :=
  d.exponent + (toString d.digits).length - 1

/-- A decimal with a point behind the first digit and the exponent of that digit, which
has its sign written. -/
def scientific (d : Decimal) : String :=
  let text := (toString d.digits).toList
  let e := leading d
  let mantissa := match text with
    | [] => []
    | [c] => [c]
    | c :: rest => c :: '.' :: rest
  String.ofList mantissa ++ (if e < 0 then "e-" else "e+") ++ toString e.natAbs

/-- A positional decimal with a point, if need be with a zero behind it. -/
def pointed (d : Decimal) : String :=
  if 0 ≤ d.exponent then positional d ++ ".0" else positional d

/-- The sign in front of a number. -/
def signed (negative : Bool) (text : String) : String :=
  if negative then "-" ++ text else text

/-- A number in positional layout, however many zeros that takes. -/
def wide : Binary64 → String
  | .finite s m q => signed s (pointed (decimal m q))
  | .infinite s => signed s "inf"
  | .undefined => "NaN"

/-- A number in positional layout from `10 ^ -5` up to below `10 ^ 16`, and with an
exponent elsewhere. -/
def compact : Binary64 → String
  | .finite s m q =>
    let d := decimal m q
    let e := leading d
    signed s (if m = 0 ∨ (-5 ≤ e ∧ e < 16) then pointed d else scientific d)
  | .infinite s => signed s "inf"
  | .undefined => "NaN"

end TokenAuthority.Shortest
