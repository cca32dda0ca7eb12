import TokenAuthority.Bytes
import TokenAuthority.Json.Error

/-!
# Numbers

A number is read as a whole number if it is one and fits 64 binary digits, and as a
floating-point number otherwise. The latter takes in as many digits as 64 binary digits
hold and counts the others.
-/

namespace TokenAuthority.Json

/-- A number as read. -/
inductive Number where
  | natural (value : Nat)
  /-- The number below zero with this distance from it. -/
  | negative (value : Nat)
  | float (value : Binary64)
  deriving DecidableEq, Repr

/-- A number as an error tells it. -/
def Number.found : Number → Found
  | natural n => .natural n
  | negative n => .negative n
  | float f => .float f

/-- Whether an octet is a digit. -/
def isDigit (b : UInt8) : Bool := 0x30 ≤ b && b ≤ 0x39

/-- The number of a digit. -/
def digitValue (b : UInt8) : Nat := b.toNat - 0x30

/-- A number with the digits behind it taken in for as long as the result stays below a
limit, and the digits left over. -/
def takeIn (limit : Nat) : Nat → Bytes → Nat × Bytes
  | n, [] => (n, [])
  | n, b :: rest =>
    if n * 10 + digitValue b < limit then takeIn limit (n * 10 + digitValue b) rest
    else (n, b :: rest)

/-- One more than the largest whole number. -/
def wordLimit : Nat := 1 <<< 64

/-- A float brought to its exponent, in steps of the largest power of ten there is. -/
def shrink : Nat → Binary64 → Nat → Binary64
  | 0, f, _ => f
  | steps + 1, f, e =>
    if e ≤ 308 then f.div (.tenTo e)
    else if f.isZero then f
    else shrink steps (f.div (.tenTo 308)) (e - 308)

/-- The float for digits and an exponent. -/
def ofParts (negative : Bool) (digits : Nat) (exponent : Int) : Except Error Number :=
  let f := Binary64.ofNat digits
  let signed (f : Binary64) := Number.float (if negative then f.neg else f)
  if 0 ≤ exponent then
    if exponent ≤ 308 then
      match f.mul (.tenTo exponent.toNat) with
      | .infinite _ => .error .numberTooLarge
      | g => .ok (signed g)
    else if f.isZero then .ok (signed f)
    else .error .numberTooLarge
  else .ok (signed (shrink 8 f (-exponent).toNat))

/-- The exponent behind its letter, for the digits and the exponent read before it. -/
def exponent (negative : Bool) (digits : Nat) (before : Int) (bs : Bytes) :
    Except Error (Number × Bytes) :=
  let (minus, bs) := match bs with
    | 0x2B :: rest => (false, rest)
    | 0x2D :: rest => (true, rest)
    | _ => (false, bs)
  match bs with
  | [] => .error .endInValue
  | b :: _ =>
    if isDigit b then
      let (e, left) := takeIn (1 <<< 31) 0 (bs.takeWhile isDigit)
      let rest := bs.dropWhile isDigit
      if left = [] then do
        let n ← ofParts negative digits (if minus then before - e else before + e)
        return (n, rest)
      else if digits ≠ 0 ∧ ¬minus then .error .numberTooLarge
      else .ok (.float (.finite negative 0 0), rest)
    else .error .badNumber

/-- What may stand behind the digits: an exponent. -/
def exponentIfAny (negative : Bool) (digits : Nat) (before : Int) (bs : Bytes) :
    Except Error (Number × Bytes) :=
  match bs with
  | b :: rest =>
    if b = 0x65 ∨ b = 0x45 then exponent negative digits before rest
    else do return (← ofParts negative digits before, bs)
  | [] => do return (← ofParts negative digits before, bs)

/-- The digits behind the point, and what may follow them. -/
def fraction (negative : Bool) (digits : Nat) (before : Int) (bs : Bytes) :
    Except Error (Number × Bytes) :=
  let own := bs.takeWhile isDigit
  let rest := bs.dropWhile isDigit
  let (n, left) := takeIn wordLimit digits own
  if own = [] then .error (if rest = [] then .endInValue else .badNumber)
  else exponentIfAny negative n (before - (own.length - left.length : Nat)) rest

/-- The whole number with a sign; zero below zero and what does not fit is a float. -/
def whole (negative : Bool) (n : Nat) : Number :=
  if negative then
    if 0 < n ∧ n ≤ 1 <<< 63 then .negative n else .float (Binary64.ofNat n).neg
  else .natural n

/-- What may stand behind the digits before the point. -/
def behindWhole (negative : Bool) (n : Nat) (bs : Bytes) : Except Error (Number × Bytes) :=
  match bs with
  | b :: rest =>
    if b = 0x2E then fraction negative n 0 rest
    else if b = 0x65 ∨ b = 0x45 then exponent negative n 0 rest
    else .ok (whole negative n, bs)
  | [] => .ok (whole negative n, bs)

/-- A number behind its sign, and what follows it. -/
def number (negative : Bool) (bs : Bytes) : Except Error (Number × Bytes) :=
  match bs with
  | [] => .error .endInValue
  | b :: rest =>
    if b = 0x30 then
      if (rest.head?.map isDigit).getD false then .error .badNumber
      else behindWhole negative 0 rest
    else if isDigit b then
      let (n, left) := takeIn wordLimit 0 (bs.takeWhile isDigit)
      let rest := bs.dropWhile isDigit
      if left = [] then behindWhole negative n rest
      else
        match rest with
        | c :: behind =>
          if c = 0x2E then fraction negative n left.length behind
          else exponentIfAny negative n left.length rest
        | [] => exponentIfAny negative n left.length rest
    else .error .badNumber

/-! ### Passing over -/

/-- What follows an exponent, given behind its letter. -/
def passExponent (bs : Bytes) : Except Error Bytes :=
  let bs := match bs with
    | b :: rest => if b = 0x2B ∨ b = 0x2D then rest else bs
    | [] => bs
  match bs with
  | b :: _ => if isDigit b then .ok (bs.dropWhile isDigit) else .error .badNumber
  | [] => .error .badNumber

/-- What follows an exponent, if there is one. -/
def passExponentIfAny : Bytes → Except Error Bytes
  | b :: rest => if b = 0x65 ∨ b = 0x45 then passExponent rest else .ok (b :: rest)
  | [] => .ok []

/-- What follows the part of a number behind its whole digits. -/
def passBehindWhole : Bytes → Except Error Bytes
  | b :: rest =>
    if b = 0x2E then
      match rest with
      | d :: _ =>
        if isDigit d then passExponentIfAny (rest.dropWhile isDigit) else .error .badNumber
      | [] => .error .badNumber
    else passExponentIfAny (b :: rest)
  | [] => .ok []

/-- What follows a number whose sign was read. -/
def passNumber : Bytes → Except Error Bytes
  | b :: rest =>
    if b = 0x30 then
      if (rest.head?.map isDigit).getD false then .error .badNumber else passBehindWhole rest
    else if isDigit b then passBehindWhole (rest.dropWhile isDigit)
    else .error .badNumber
  | [] => .error .badNumber

end TokenAuthority.Json
