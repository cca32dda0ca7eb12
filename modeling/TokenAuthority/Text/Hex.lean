import TokenAuthority.Bytes

/-!
# Hexadecimal digits

Octets as pairs of digits, lower case when written and either case when read.
Reading refuses an odd number of digits and every other character.
-/

namespace TokenAuthority.Hex

/-- The digit of a number below sixteen. -/
def digit (n : Nat) : Char :=
  if n < 10 then Char.ofNat (48 + n) else Char.ofNat (87 + n)

/-- The value of a digit of either case. -/
def value? (c : Char) : Option Nat :=
  if '0' ≤ c ∧ c ≤ '9' then some (c.toNat - 48)
  else if 'a' ≤ c ∧ c ≤ 'f' then some (c.toNat - 87)
  else if 'A' ≤ c ∧ c ≤ 'F' then some (c.toNat - 55)
  else none

/-- Two digits an octet. -/
def encode : Bytes → List Char
  | [] => []
  | b :: rest => digit (b.toNat / 16) :: digit (b.toNat % 16) :: encode rest

/-- The octets of pairs of digits. -/
def decode? : List Char → Option Bytes
  | [] => some []
  | [_] => none
  | h :: l :: rest => do
    let high ← value? h
    let low ← value? l
    let tail ← decode? rest
    return UInt8.ofNat (high * 16 + low) :: tail

/-- The number of hexadecimal digits, none of which leads with a zero. -/
def ofNat (n : Nat) : List Char :=
  if n < 16 then [digit n] else ofNat (n / 16) ++ [digit (n % 16)]
termination_by n
decreasing_by omega

end TokenAuthority.Hex
