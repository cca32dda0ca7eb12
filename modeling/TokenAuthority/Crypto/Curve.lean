import TokenAuthority.Crypto.Modular

/-!
# Curves of prime order

The curves `y² = x³ + ax + b` over a prime field that keys are made on, and the
multiples of a point. A point is kept in projective form while it is multiplied, so
that only one inverse is taken at the end.
-/

namespace TokenAuthority

/-- A curve by name. -/
inductive Curve where
  | p256
  | p384
  | p521
  | k256
  deriving DecidableEq, Repr

/-- What defines a curve and its base point. -/
structure Curve.Params where
  /-- The prime of the field. -/
  field : Nat
  a : Nat
  b : Nat
  baseX : Nat
  baseY : Nat
  /-- The order of the base point. -/
  order : Nat

namespace Curve

/-- The constants of a curve. -/
def params : Curve → Params
  | p256 =>
    { field := 1 <<< 256 - 1 <<< 224 + 1 <<< 192 + 1 <<< 96 - 1
      a := 1 <<< 256 - 1 <<< 224 + 1 <<< 192 + 1 <<< 96 - 4
      b := 0x5ac635d8aa3a93e7b3ebbd55769886bc651d06b0cc53b0f63bce3c3e27d2604b
      baseX := 0x6b17d1f2e12c4247f8bce6e563a440f277037d812deb33a0f4a13945d898c296
      baseY := 0x4fe342e2fe1a7f9b8ee7eb4a7c0f9e162bce33576b315ececbb6406837bf51f5
      order := 0xffffffff00000000ffffffffffffffffbce6faada7179e84f3b9cac2fc632551 }
  | p384 =>
    { field := 1 <<< 384 - 1 <<< 128 - 1 <<< 96 + 1 <<< 32 - 1
      a := 1 <<< 384 - 1 <<< 128 - 1 <<< 96 + 1 <<< 32 - 4
      b := 0xb3312fa7e23ee7e4988e056be3f82d19181d9c6efe8141120314088f5013875ac656398d8a2ed19d2a85c8edd3ec2aef
      baseX := 0xaa87ca22be8b05378eb1c71ef320ad746e1d3b628ba79b9859f741e082542a385502f25dbf55296c3a545e3872760ab7
      baseY := 0x3617de4a96262c6f5d9e98bf9292dc29f8f41dbd289a147ce9da3113b5f0b8c00a60b1ce1d7e819d7a431d7c90ea0e5f
      order := 0xffffffffffffffffffffffffffffffffffffffffffffffffc7634d81f4372ddf581a0db248b0a77aecec196accc52973 }
  | p521 =>
    { field := 1 <<< 521 - 1
      a := 1 <<< 521 - 4
      b := 0x0051953eb9618e1c9a1f929a21a0b68540eea2da725b99b315f3b8b489918ef109e156193951ec7e937b1652c0bd3bb1bf073573df883d2c34f1ef451fd46b503f00
      baseX := 0x00c6858e06b70404e9cd9e3ecb662395b4429c648139053fb521f828af606b4d3dbaa14b5e77efe75928fe1dc127a2ffa8de3348b3c1856a429bf97e7e31c2e5bd66
      baseY := 0x011839296a789a3bc0045c8a5fb42c7d1bd998f54449579b446817afbd17273e662c97ee72995ef42640c550b9013fad0761353c7086a272c24088be94769fd16650
      order := 0x01fffffffffffffffffffffffffffffffffffffffffffffffffffffffffffffffffa51868783bf2f966b7fcc0148f709a5d03bb5c9b8899c47aebb6fb71e91386409 }
  | k256 =>
    { field := 1 <<< 256 - 1 <<< 32 - 977
      a := 0
      b := 7
      baseX := 0x79be667ef9dcbbac55a06295ce870b07029bfcdb2dce28d959f2815b16f81798
      baseY := 0x483ada7726a3c4655da4fbfc0e1108a8fd17b448a68554199c47d08ffb10d4b8
      order := 0xfffffffffffffffffffffffffffffffebaaedce6af48a03bbfd25e8cd0364141 }

/-- How many octets a coordinate has. -/
def fieldSize (c : Curve) : Nat := (Modular.bits c.params.field + 7) / 8

/-- How many octets a number below the order has. -/
def orderSize (c : Curve) : Nat := (Modular.bits c.params.order + 7) / 8

end Curve

/-- A point of a curve. -/
inductive Point where
  /-- The neutral element. -/
  | infinity
  | affine (x y : Nat)
  deriving DecidableEq, Repr

/-- A point with the coordinates `x / z²` and `y / z³`; the neutral element if `z` is 0. -/
structure Projective where
  x : Nat
  y : Nat
  z : Nat

namespace Curve

/-- Whether the coordinates are below the field's prime and satisfy the equation. -/
def contains (c : Curve) (x y : Nat) : Bool :=
  let p := c.params.field
  x < p && y < p && y * y % p == (x * x % p * x + c.params.a * x + c.params.b) % p

/-- A second coordinate to a first, if there is one. All the primes are one less than a multiple
of four, so a root is a power. -/
def root (c : Curve) (x : Nat) : Nat :=
  let p := c.params.field
  Modular.pow p ((x * x % p * x + c.params.a * x + c.params.b) % p) ((p + 1) / 4)

/-- The double of a point. -/
def double (c : Curve) (t : Projective) : Projective :=
  let p := c.params.field
  let yy := t.y * t.y % p
  let s := 4 * t.x * yy % p
  let zz := t.z * t.z % p
  let m := (3 * t.x * t.x + c.params.a * (zz * zz % p)) % p
  let x := Modular.sub p (m * m % p) (2 * s % p)
  { x := x
    y := Modular.sub p (m * Modular.sub p s x % p) (8 * yy * yy % p)
    z := 2 * t.y * t.z % p }

/-- The sum of two points. -/
def add (c : Curve) (t u : Projective) : Projective :=
  if t.z = 0 then u
  else if u.z = 0 then t
  else
    let p := c.params.field
    let tz := t.z * t.z % p
    let uz := u.z * u.z % p
    let x1 := t.x * uz % p
    let x2 := u.x * tz % p
    let y1 := t.y * uz % p * u.z % p
    let y2 := u.y * tz % p * t.z % p
    let h := Modular.sub p x2 x1
    let r := Modular.sub p y2 y1
    if h = 0 then
      if r = 0 then c.double t else ⟨1, 1, 0⟩
    else
      let hh := h * h % p
      let hhh := hh * h % p
      let v := x1 * hh % p
      let x := Modular.sub p (r * r % p) ((hhh + 2 * v) % p)
      { x := x
        y := Modular.sub p (r * Modular.sub p v x % p) (y1 * hhh % p)
        z := t.z * u.z % p * h % p }

/-- The multiple `k · t`, from the highest binary digit of `k` down. -/
def multiply (c : Curve) (k : Nat) (t : Projective) : Projective :=
  if k = 0 then ⟨1, 1, 0⟩
  else
    let even := c.double (multiply c (k / 2) t)
    if k % 2 = 1 then c.add even t else even
termination_by k
decreasing_by omega

/-- The projective form of a point. -/
def ofPoint : Point → Projective
  | .infinity => ⟨1, 1, 0⟩
  | .affine x y => ⟨x, y, 1⟩

/-- The coordinates of a point in projective form. -/
def toPoint (c : Curve) (t : Projective) : Point :=
  let p := c.params.field
  if t.z = 0 then .infinity
  else
    let w := Modular.inverse p t.z
    let ww := w * w % p
    .affine (t.x * ww % p) (t.y * ww % p * w % p)

/-- The base point. -/
def base (c : Curve) : Point := .affine c.params.baseX c.params.baseY

/-- The multiple `k · base`. -/
def baseTimes (c : Curve) (k : Nat) : Point :=
  c.toPoint (c.multiply k (ofPoint c.base))

/-- The point `j · base + k · t`. -/
def combine (c : Curve) (j k : Nat) (t : Point) : Point :=
  c.toPoint (c.add (c.multiply j (ofPoint c.base)) (c.multiply k (ofPoint t)))

end Curve

end TokenAuthority
