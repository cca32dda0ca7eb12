/-!
# Floating-point numbers of 64 bits

The numbers `± mantissa · 2 ^ exponent` with a mantissa below `2 ^ 53`, the two
infinities and the undefined number. Arithmetic is exact and then rounded once, to the
nearest such number, and to the even mantissa if two are equally near.
-/

namespace TokenAuthority

/-- A number of 64 bits. A finite one is kept with the largest mantissa it has, or with
the smallest exponent. -/
inductive Binary64 where
  | finite (negative : Bool) (mantissa : Nat) (exponent : Int)
  | infinite (negative : Bool)
  | undefined
  deriving DecidableEq, Repr

namespace Binary64

/-- The quotient rounded to the nearest natural number, and to the even one of two that
are equally near. -/
def roundDiv (num den : Nat) : Nat :=
  let low := num / den
  let twice := 2 * (num % den)
  if twice < den ∨ (twice = den ∧ low % 2 = 0) then low else low + 1

/-- The quotient of two numbers times a power of two, rounded. -/
def scaledDiv (num den : Nat) (exponent : Int) : Nat :=
  roundDiv (num <<< exponent.toNat) (den <<< (-exponent).toNat)

/-- The number nearest to a quotient; infinite beyond the largest. -/
def ofQuotient (negative : Bool) (num den : Nat) : Binary64 :=
  if num = 0 then .finite negative 0 0
  else
    let guess : Int := (num.log2 : Int) - den.log2 - 53
    let exponent := max guess (-1074)
    let wide := scaledDiv num den (-exponent)
    let (mantissa, exponent) :=
      if wide < 1 <<< 53 then (wide, exponent)
      else (scaledDiv num den (-(exponent + 1)), exponent + 1)
    let (mantissa, exponent) :=
      if mantissa < 1 <<< 53 then (mantissa, exponent) else (mantissa / 2, exponent + 1)
    if 971 < exponent then .infinite negative else .finite negative mantissa exponent

/-- The number nearest to a natural number. -/
def ofNat (n : Nat) : Binary64 := ofQuotient false n 1

/-- The number nearest to `digits · 10 ^ exponent`. -/
def ofDecimal (negative : Bool) (digits : Nat) (exponent : Int) : Binary64 :=
  if digits = 0 then .finite negative 0 0
  else if 400 < exponent then .infinite negative
  else if exponent + (digits.log2 : Int) < -1200 then .finite negative 0 0
  else ofQuotient negative (digits * Nat.pow 10 exponent.toNat) (Nat.pow 10 (-exponent).toNat)

/-- The power of ten nearest to `10 ^ n`, for an `n` up to 308. -/
def tenTo (n : Nat) : Binary64 := ofNat (Nat.pow 10 n)

/-- The product of two finite numbers. -/
def mul : Binary64 → Binary64 → Binary64
  | .finite s m q, .finite t n r =>
    ofQuotient (s != t) ((m * n) <<< (q + r).toNat) (1 <<< (-(q + r)).toNat)
  | _, _ => .undefined

/-- The quotient of a finite number by one that is not zero. -/
def div : Binary64 → Binary64 → Binary64
  | .finite s m q, .finite t n r =>
    ofQuotient (s != t) (m <<< (q - r).toNat) (n <<< (r - q).toNat)
  | _, _ => .undefined

/-- The number with the other sign. -/
def neg : Binary64 → Binary64
  | .finite s m q => .finite (!s) m q
  | .infinite s => .infinite (!s)
  | .undefined => .undefined

/-- Whether a number is zero, of either sign. -/
def isZero : Binary64 → Bool
  | .finite _ m _ => m == 0
  | _ => false

end Binary64

end TokenAuthority
