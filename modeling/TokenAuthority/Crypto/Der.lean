import TokenAuthority.Bytes

/-!
# Tagged octet strings

The encoding of structured data as a tag, a length and the content. Writing gives the
shortest form of every length and number; reading takes longer forms of a length too,
and leaves what stands behind the first item to the caller.
-/

namespace TokenAuthority.Der

/-! ### Tags -/

def integerTag : UInt8 := 0x02
def bitStringTag : UInt8 := 0x03
def octetStringTag : UInt8 := 0x04
def nullTag : UInt8 := 0x05
def nameTag : UInt8 := 0x06
def sequenceTag : UInt8 := 0x30

/-- The tag of the part of a sequence with the number `n`. -/
def partTag (n : Nat) : UInt8 := UInt8.ofNat (0xA0 + n)

/-! ### Writing -/

/-- A length: itself below 128, else the number of its octets and these. -/
def length (n : Nat) : Bytes :=
  if n < 128 then [UInt8.ofNat n]
  else UInt8.ofNat (128 + Bytes.width n) :: Bytes.ofNatMin n

/-- A tag, the length of the content, and the content. -/
def item (tag : UInt8) (content : Bytes) : Bytes :=
  tag :: (length content.length ++ content)

/-- A number: a zero octet goes in front if the first digit would be a sign. -/
def integer (n : Nat) : Bytes :=
  let octets := Bytes.ofNatMin n
  item integerTag (if octets.headD 0x80 < 0x80 then octets else 0 :: octets)

/-- The items one behind the other. -/
def sequence (parts : List Bytes) : Bytes :=
  item sequenceTag parts.flatten

/-- Whole octets as a string of binary digits. -/
def bitString (bs : Bytes) : Bytes :=
  item bitStringTag (0 :: bs)

/-! ### Reading -/

/-- A length and what follows it. -/
def length? : Bytes → Option (Nat × Bytes)
  | [] => none
  | b :: rest =>
    if b < 0x80 then some (b.toNat, rest)
    else
      let n := b.toNat - 128
      if n = 0 ∨ rest.length < n then none
      else some (Bytes.toNatBE (rest.take n), rest.drop n)

/-- The content of the first item, which must have the given tag, and what follows it. -/
def item? (tag : UInt8) : Bytes → Option (Bytes × Bytes)
  | [] => none
  | t :: rest => do
    let (n, rest) ← length? rest
    if t = tag ∧ n ≤ rest.length then some (rest.take n, rest.drop n) else none

/-- An item with any tag: tag, content, and what follows it. -/
def anyItem? (bs : Bytes) : Option (UInt8 × Bytes × Bytes) := do
  let tag ← bs.head?
  let (content, rest) ← item? tag bs
  return (tag, content, rest)

/-- Whether the content of a number has no octet that it can do without. -/
def isShortest : Bytes → Bool
  | [] => false
  | [_] => true
  | a :: b :: _ => if a = 0 then 0x80 ≤ b else if a = 0xFF then b < 0x80 else true

/-- What follows a number in its shortest form. -/
def skipInteger? (bs : Bytes) : Option Bytes := do
  let (content, rest) ← item? integerTag bs
  if isShortest content then some rest else none

/-- A number without a sign, in any form, and what follows it. -/
def natural? (bs : Bytes) : Option (Nat × Bytes) := do
  let (content, rest) ← item? integerTag bs
  return (Bytes.toNatBE content, rest)

/-- As many numbers without a sign as asked for, and what follows them. -/
def naturals? : Nat → Bytes → Option (List Nat × Bytes)
  | 0, bs => some ([], bs)
  | n + 1, bs => do
    let (first, bs) ← natural? bs
    let (others, bs) ← naturals? n bs
    return (first :: others, bs)

/-- Whole octets that stand as a string of binary digits, and what follows it. -/
def bitString? (bs : Bytes) : Option (Bytes × Bytes) := do
  let (content, rest) ← item? bitStringTag bs
  match content with
  | 0 :: octets => some (octets, rest)
  | _ => none

end TokenAuthority.Der
