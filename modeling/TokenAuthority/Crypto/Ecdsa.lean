import TokenAuthority.Crypto.Curve
import TokenAuthority.Crypto.Hmac

/-!
# ECDSA signatures

A signature is a pair of numbers below the order of the curve, written one behind the
other in a fixed number of octets each. A string of any other length is no signature.
-/

namespace TokenAuthority.Ecdsa

/-- How a point is written: with both coordinates, with the first and the last binary digit of
the second, or with all of these. -/
inductive PointForm where
  | plain
  | short
  | both
  deriving DecidableEq, Repr

/-- A point of a curve. -/
structure PublicKey where
  curve : Curve
  x : Nat
  y : Nat
  form : PointForm
  deriving DecidableEq, Repr

/-- A number below the order and the multiple of the base point that it gives. -/
structure PrivateKey where
  curve : Curve
  secret : Nat
  x : Nat
  y : Nat
  form : PointForm
  /-- Whether the written form of the key tells the point. -/
  pointWritten : Bool
  deriving DecidableEq, Repr

/-- The public half. -/
def PrivateKey.toPublic (k : PrivateKey) : PublicKey :=
  ⟨k.curve, k.x, k.y, k.form⟩

/-- The key with a given secret, which must not be a multiple of the order. -/
def PrivateKey.ofSecret? (c : Curve) (secret : Nat) (pointWritten : Bool) : Option PrivateKey :=
  match c.baseTimes secret with
  | .infinity => none
  | .affine x y => some ⟨c, secret, x, y, .plain, pointWritten⟩

/-- A signature: two numbers. -/
structure Pair where
  r : Nat
  s : Nat
  deriving DecidableEq, Repr

namespace Pair

/-- Both numbers in `width` octets each. -/
def encode (width : Nat) (p : Pair) : Bytes :=
  Bytes.ofNatBE width p.r ++ Bytes.ofNatBE width p.s

/-- The pair that `2 * width` octets stand for. -/
def decode? (width : Nat) (bs : Bytes) : Option Pair :=
  if bs.length = 2 * width then
    some ⟨Bytes.toNatBE (bs.take width), Bytes.toNatBE (bs.drop width)⟩
  else none

@[simp] theorem length_encode (width : Nat) (p : Pair) : (p.encode width).length = 2 * width := by
  simp [encode]; omega

end Pair

/-- The leading binary digits of a digest, as many as the order of the curve has. -/
def leading (c : Curve) (digest : Bytes) : Nat :=
  digest.toNatBE >>> (8 * digest.length - Modular.bits c.params.order)

/-- The signature of a digest with a given nonce. -/
def signWith (k : PrivateKey) (digest : Bytes) (nonce : Nat) : Pair :=
  let n := k.curve.params.order
  match k.curve.baseTimes nonce with
  | .infinity => ⟨0, 0⟩
  | .affine x _ =>
    let r := x % n
    ⟨r, Modular.inverse n nonce * ((leading k.curve digest + r * k.secret) % n) % n⟩

/-- The first signature of a digest with two numbers other than zero, over nonces drawn
from the secret and the digest. -/
def attempt (k : PrivateKey) (digest : Bytes) : Nat → Nat → Pair
  | 0, _ => ⟨0, 0⟩
  | tries + 1, i =>
    let nonce := expandBelow (Bytes.ofNatMin k.secret) (digest ++ Bytes.ofNatMin i)
      k.curve.params.order
    let pair := signWith k digest nonce
    if pair.r = 0 ∨ pair.s = 0 then attempt k digest tries (i + 1) else pair

/-- The signature of a message. -/
def sign (k : PrivateKey) (d : Digest) (message : Bytes) : Pair :=
  attempt k (d.of message) 64 0

/-- Whether a pair is a signature of the message. -/
def verify (k : PublicKey) (d : Digest) (message : Bytes) (pair : Pair) : Bool :=
  let n := k.curve.params.order
  if 0 < pair.r ∧ pair.r < n ∧ 0 < pair.s ∧ pair.s < n then
    let w := Modular.inverse n pair.s
    let z := leading k.curve (d.of message) % n
    match k.curve.combine (z * w % n) (pair.r * w % n) (.affine k.x k.y) with
    | .infinity => false
    | .affine x _ => x % n == pair.r
  else false

/-- A key on a curve made from a seed. -/
def generate (c : Curve) (seed : Bytes) : PrivateKey :=
  let secret := expandBelow seed [3] c.params.order
  (PrivateKey.ofSecret? c secret true).getD ⟨c, 1, c.params.baseX, c.params.baseY, .plain, true⟩

end TokenAuthority.Ecdsa
