import TokenAuthority.Json.Error
import TokenAuthority.Text.Utf8

/-!
# Texts in quotes

Writing escapes the quote, the backslash and the control characters, and leaves all
other characters as they are. Reading takes every escape of the notation, and works on
octets: whether they are the form of a text is looked at when the text has ended.
-/

namespace TokenAuthority.Json

/-! ### Writing -/

/-- A character inside quotes. -/
def quotedChar (c : Char) : List Char :=
  if c = '"' then ['\\', '"']
  else if c = '\\' then ['\\', '\\']
  else if c = '\x08' then ['\\', 'b']
  else if c = '\t' then ['\\', 't']
  else if c = '\n' then ['\\', 'n']
  else if c = '\x0c' then ['\\', 'f']
  else if c = '\r' then ['\\', 'r']
  else if c.toNat < 0x20 then
    ['\\', 'u', '0', '0', Hex.digit (c.toNat / 16), Hex.digit (c.toNat % 16)]
  else [c]

/-- A text between quotes. -/
def quoted (s : String) : List Char :=
  '"' :: (s.toList.flatMap quotedChar ++ ['"'])

/-! ### Reading -/

/-- The octet of a quote. -/
def quote : UInt8 := 0x22

/-- The octet of a backslash. -/
def backslash : UInt8 := 0x5C

/-- Whether an octet stands for itself between quotes. -/
def isPlain (b : UInt8) : Bool :=
  0x20 ≤ b && b != quote && b != backslash

/-- The number of a hexadecimal digit. -/
def hexValue (b : UInt8) : Except Error Nat :=
  match Hex.value? (Char.ofNat b.toNat) with
  | some n => .ok n
  | none => .error .badEscape

/-- The number that four digits stand for. -/
def fourDigits : Bytes → Except Error Nat
  | a :: b :: c :: d :: _ => do
    let a ← hexValue a
    let b ← hexValue b
    let c ← hexValue c
    let d ← hexValue d
    return a * 4096 + b * 256 + c * 16 + d
  | _ => .error .endInText

/-- The octets of the character with a number. -/
def codePoint (n : Nat) : Bytes :=
  String.utf8EncodeChar (Char.ofNat n)

/-- The character behind the first of two surrogates, which needs the second; the count
is that of the octets of both. -/
def secondSurrogate (first : Nat) : Bytes → Except Error (Bytes × Nat)
  | [] => .error .endInText
  | b :: rest =>
    if b ≠ backslash then .error .halfSurrogate
    else
      match rest with
      | [] => .error .endInText
      | u :: digits =>
        if u ≠ 0x75 then .error .halfSurrogate
        else do
          let second ← fourDigits digits
          if second < 0xDC00 ∨ 0xDFFF < second then throw .loneSurrogate
          return (codePoint ((first - 0xD800) * 1024 + (second - 0xDC00) + 0x10000), 11)

/-- The octets that an escape stands for, given without its backslash, and how many
octets it has. -/
def escape : Bytes → Except Error (Bytes × Nat)
  | [] => .error .endInText
  | b :: rest =>
    if b = 0x22 ∨ b = 0x5C ∨ b = 0x2F then .ok ([b], 1)
    else if b = 0x62 then .ok ([0x08], 1)
    else if b = 0x66 then .ok ([0x0C], 1)
    else if b = 0x6E then .ok ([0x0A], 1)
    else if b = 0x72 then .ok ([0x0D], 1)
    else if b = 0x74 then .ok ([0x09], 1)
    else if b = 0x75 then do
      let n ← fourDigits rest
      if 0xDC00 ≤ n ∧ n ≤ 0xDFFF then throw .loneSurrogate
      if 0xD800 ≤ n ∧ n ≤ 0xDBFF then secondSurrogate n (rest.drop 4)
      else return (codePoint n, 5)
    else .error .badEscape

/-- An escape that is passed over: its form counts, and not what it stands for. -/
def passedEscape : Bytes → Except Error (Bytes × Nat)
  | [] => .error .endInText
  | b :: rest =>
    if b = 0x75 then do
      let _ ← fourDigits rest
      return ([], 5)
    else do
      let _ ← escape [b]
      return ([], 1)

/-- The octets up to the closing quote, with every escape replaced by what it stands
for, and what follows the quote. -/
def untilQuote (escape : Bytes → Except Error (Bytes × Nat)) :
    Nat → Bytes → Except Error (Bytes × Bytes)
  | 0, _ => .error .endInText
  | fuel + 1, bs =>
    match bs.dropWhile isPlain with
    | [] => .error .endInText
    | b :: rest =>
      if b = quote then .ok (bs.takeWhile isPlain, rest)
      else if b = backslash then do
        let (octets, n) ← escape rest
        let (others, behind) ← untilQuote escape fuel (rest.drop n)
        return (bs.takeWhile isPlain ++ octets ++ others, behind)
      else .error .controlCharacter

/-- A text whose opening quote was read, and what follows it. -/
def textBody (bs : Bytes) : Except Error (String × Bytes) := do
  let (octets, rest) ← untilQuote escape (bs.length + 1) bs
  match Utf8.decode? octets with
  | some s => return (s, rest)
  | none => throw .badCodePoint

/-- What follows a text whose opening quote was read. -/
def passText (bs : Bytes) : Except Error Bytes := do
  let (_, rest) ← untilQuote passedEscape (bs.length + 1) bs
  return rest

end TokenAuthority.Json
