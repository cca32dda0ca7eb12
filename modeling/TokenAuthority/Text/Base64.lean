import TokenAuthority.Bytes

/-!
# Base 64

Three octets as four symbols. A code is an alphabet with a rule about padding: either a
short last group is filled up with `=`, or it must not be. The reader is strict, so that
octets have one written form: symbols outside the alphabet, padding in the wrong place
and unused binary digits that are not zero are refused, each with the place.
-/

namespace TokenAuthority.Base64

/-- An alphabet and a rule about padding. -/
structure Code where
  /-- The symbol for 62. -/
  plus : UInt8
  /-- The symbol for 63. -/
  slash : UInt8
  /-- Whether a short last group is filled up. -/
  padded : Bool

/-- The usual alphabet, filled up. -/
def standard : Code := ⟨0x2B, 0x2F, true⟩

/-- The alphabet without meaning in addresses, not filled up. -/
def url : Code := ⟨0x2D, 0x5F, false⟩

/-- Why symbols are refused. Places count octets from zero. -/
inductive Error where
  /-- An octet that is no symbol, or padding where none may stand. -/
  | symbol (octet : UInt8) (place : Nat)
  /-- A last symbol with unused binary digits that are not zero. -/
  | lastSymbol (octet : UInt8) (place : Nat)
  /-- A single symbol in the last group. -/
  | length (place : Nat)
  /-- Padding that is missing, or not wanted. -/
  | padding
  deriving DecidableEq, Repr

/-- The text of an error. -/
def Error.message : Error → String
  | symbol b i => "Invalid symbol " ++ toString b.toNat ++ ", offset " ++ toString i ++ "."
  | lastSymbol b i => "Invalid last symbol " ++ toString b.toNat ++ ", offset " ++ toString i ++ "."
  | length i => "Invalid input length: " ++ toString i
  | padding => "Invalid padding"

/-- The padding symbol. -/
def pad : UInt8 := 0x3D

/-- The symbol of a number below 64. -/
def Code.symbol (c : Code) (n : Nat) : UInt8 :=
  if n < 26 then UInt8.ofNat (65 + n)
  else if n < 52 then UInt8.ofNat (71 + n)
  else if n < 62 then UInt8.ofNat (n - 4)
  else if n = 62 then c.plus
  else c.slash

/-- The number of a symbol. -/
def Code.value? (c : Code) (b : UInt8) : Option Nat :=
  if 65 ≤ b ∧ b ≤ 90 then some (b.toNat - 65)
  else if 97 ≤ b ∧ b ≤ 122 then some (b.toNat - 71)
  else if 48 ≤ b ∧ b ≤ 57 then some (b.toNat + 4)
  else if b = c.plus then some 62
  else if b = c.slash then some 63
  else none

/-- The padding behind so many symbols of the last group. -/
def Code.fill (c : Code) (n : Nat) : Bytes :=
  if c.padded then List.replicate n pad else []

/-- The symbols for octets. -/
def Code.encode (c : Code) : Bytes → Bytes
  | [] => []
  | [x] => [c.symbol (x.toNat / 4), c.symbol (x.toNat % 4 * 16)] ++ c.fill 2
  | [x, y] =>
    [c.symbol (x.toNat / 4), c.symbol (x.toNat % 4 * 16 + y.toNat / 16),
      c.symbol (y.toNat % 16 * 4)] ++ c.fill 1
  | x :: y :: z :: rest =>
    c.symbol (x.toNat / 4) :: c.symbol (x.toNat % 4 * 16 + y.toNat / 16) ::
      c.symbol (y.toNat % 16 * 4 + z.toNat / 64) :: c.symbol (z.toNat % 64) :: c.encode rest

/-- The symbols for octets, as characters. -/
def Code.encodeChars (c : Code) (bs : Bytes) : List Char :=
  (c.encode bs).map fun b => Char.ofNat b.toNat

/-- The symbols for octets, as a text. -/
def Code.encodeText (c : Code) (bs : Bytes) : String :=
  String.ofList (c.encodeChars bs)

/-- The number of a symbol that stands at a place. -/
def Code.value (c : Code) (place : Nat) (b : UInt8) : Except Error Nat :=
  match c.value? b with
  | some n => .ok n
  | none => .error (.symbol b place)

/-- The numbers of the symbols of the last group up to the padding, and how much padding
there is. `seen` counts the symbols read; padding has no place before the third. -/
def Code.lastGroup (c : Code) (place : Nat) : Nat → Bytes → Except Error (List Nat × Nat)
  | _, [] => .ok ([], 0)
  | seen, b :: rest =>
    if b = pad then
      if seen < 2 then .error (.symbol b (place + seen))
      else if rest.all (· == pad) then .ok ([], rest.length + 1)
      else .error (.symbol pad (place + seen))
    else do
      let n ← c.value (place + seen) b
      let (others, padding) ← c.lastGroup place (seen + 1) rest
      return (n :: others, padding)

/-- The octets of the last group, of at most four symbols, that starts at a place. -/
def Code.decodeLast (c : Code) (place : Nat) (bs : Bytes) : Except Error Bytes := do
  let (numbers, padding) ← c.lastGroup place 0 bs
  if numbers.length < 2 then throw (.length (place + numbers.length))
  if c.padded then
    if (numbers.length + padding) % 4 ≠ 0 then throw .padding
  else if padding ≠ 0 then throw .padding
  let last := bs.getD (numbers.length - 1) 0
  match numbers with
  | [a, b] =>
    if b % 16 ≠ 0 then throw (.lastSymbol last (place + 1))
    return [UInt8.ofNat (a * 4 + b / 16)]
  | [a, b, d] =>
    if d % 4 ≠ 0 then throw (.lastSymbol last (place + 2))
    return [UInt8.ofNat (a * 4 + b / 16), UInt8.ofNat (b % 16 * 16 + d / 4)]
  | [a, b, d, e] =>
    return [UInt8.ofNat (a * 4 + b / 16), UInt8.ofNat (b % 16 * 16 + d / 4),
      UInt8.ofNat (d % 4 * 64 + e)]
  | _ => return []

/-- The octets of symbols that start at a place, group by group. -/
def Code.decodeFrom (c : Code) (place : Nat) : Bytes → Except Error Bytes
  | x :: y :: z :: w :: v :: rest => do
    let a ← c.value place x
    let b ← c.value (place + 1) y
    let d ← c.value (place + 2) z
    let e ← c.value (place + 3) w
    let others ← c.decodeFrom (place + 4) (v :: rest)
    return UInt8.ofNat (a * 4 + b / 16) :: UInt8.ofNat (b % 16 * 16 + d / 4) ::
      UInt8.ofNat (d % 4 * 64 + e) :: others
  | bs => c.decodeLast place bs

/-- The octets of symbols. A last symbol that makes the length one more than a multiple
of four and is none is reported before all else. -/
def Code.decode (c : Code) (bs : Bytes) : Except Error Bytes :=
  match bs.getLast? with
  | some b =>
    if bs.length % 4 = 1 ∧ b ≠ pad ∧ c.value? b = none then
      .error (.symbol b (bs.length - 1))
    else c.decodeFrom 0 bs
  | none => .ok []

end TokenAuthority.Base64
