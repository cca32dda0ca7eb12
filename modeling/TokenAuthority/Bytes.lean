/-!
# Octet strings

Octets are kept in lists, so that every reader and writer of this library is a
recursion on a list. A number is written in base 256 in two ways: `ofNatBE w n`
has exactly `w` octets and keeps the low ones, `ofNatMin n` has as few octets as
`n` needs. `toNatBE` reads both back.
-/

namespace TokenAuthority

/-- A string of octets. -/
abbrev Bytes := List UInt8

namespace Bytes

/-- The number written in base 256, most significant octet first. -/
def toNatBE (bs : Bytes) : Nat :=
  bs.foldl (fun n b => n * 256 + b.toNat) 0

/-- The low `w` octets of a number, most significant first. -/
def ofNatBE : Nat → Nat → Bytes
  | 0, _ => []
  | w + 1, n => ofNatBE w (n / 256) ++ [UInt8.ofNat n]

@[simp] theorem ofNatBE_zero (n : Nat) : ofNatBE 0 n = [] := rfl

theorem ofNatBE_succ (w n : Nat) :
    ofNatBE (w + 1) n = ofNatBE w (n / 256) ++ [UInt8.ofNat n] := rfl

@[simp] theorem length_ofNatBE (w n : Nat) : (ofNatBE w n).length = w := by
  induction w generalizing n with
  | zero => rfl
  | succ w ih => simp [ofNatBE, ih]

@[simp] theorem toNatBE_nil : toNatBE [] = 0 := rfl

@[simp] theorem toNatBE_concat (bs : Bytes) (b : UInt8) :
    toNatBE (bs ++ [b]) = toNatBE bs * 256 + b.toNat := by
  simp [toNatBE]

/-- How many octets a number needs: none for zero. -/
def width (n : Nat) : Nat :=
  if n = 0 then 0 else width (n / 256) + 1
termination_by n
decreasing_by omega

/-- The number in as few octets as it needs; zero is the empty string. -/
def ofNatMin (n : Nat) : Bytes :=
  ofNatBE (width n) n

/-- The octets one by one, combined; the longer string is cut. -/
def xor (a b : Bytes) : Bytes :=
  List.zipWith (· ^^^ ·) a b

/-- Whether strings of one length are the same, found by a look at every octet. -/
def agree (a b : Bytes) (_ : a.length = b.length) : Bool :=
  (xor a b).foldl (· ||| ·) 0 == 0

/-- The string in pieces of `n + 1` octets, the last of which may be shorter. -/
def pieces (n : Nat) (bs : Bytes) : List Bytes :=
  match bs with
  | [] => []
  | b :: rest => (b :: rest.take n) :: pieces n (rest.drop n)
termination_by bs.length
decreasing_by simp only [List.length_drop, List.length_cons]; omega

end Bytes

end TokenAuthority
