import TokenAuthority.Crypto.Hmac
import TokenAuthority.Crypto.Modular

/-!
# Keys on the twisted Edwards curve of Ed25519

No token is signed with such a key, but key material may hold one: the public half is
computed from the private one, so that the two can be compared.
-/

namespace TokenAuthority.Edwards

/-- The prime of the field. -/
def field : Nat := 1 <<< 255 - 19

/-- The constant `d` of the curve `y² - x² = 1 + d x² y²`. -/
def constant : Nat :=
  (field - 121665) * Modular.inverse field 121666 % field

/-- A point `(x / z, y / z)`, with `t = x y / z`. -/
structure Extended where
  x : Nat
  y : Nat
  z : Nat
  t : Nat

/-- The sum of two points, which has no exceptions on this curve. -/
def add (u v : Extended) : Extended :=
  let p := field
  let a := Modular.sub p u.y u.x * Modular.sub p v.y v.x % p
  let b := (u.y + u.x) * (v.y + v.x) % p
  let c := 2 * u.t * v.t % p * constant % p
  let d := 2 * u.z * v.z % p
  let e := Modular.sub p b a
  let f := Modular.sub p d c
  let g := (d + c) % p
  let h := (b + a) % p
  ⟨e * f % p, g * h % p, f * g % p, e * h % p⟩

/-- The multiple `k · u`. -/
def multiply (k : Nat) (u : Extended) : Extended :=
  if k = 0 then ⟨0, 1, 1, 0⟩
  else
    let half := multiply (k / 2) u
    let even := add half half
    if k % 2 = 1 then add even u else even
termination_by k
decreasing_by omega

/-- The base point. -/
def base : Extended :=
  let x := 0x216936d3cd6e53fec0a4e231fdd6dc5c692cc7609525a7b2c9562d608f25d51a
  let y := 0x6666666666666666666666666666666666666666666666666666666666666658
  ⟨x, y, 1, x * y % field⟩

/-- The octets of a point: `y`, least significant octet first, with the last binary digit
of `x` on top. -/
def encode (u : Extended) : Bytes :=
  let w := Modular.inverse field u.z
  let x := u.x * w % field
  let y := u.y * w % field
  (Bytes.ofNatBE 32 (y + (x % 2) <<< 255)).reverse

/-- The multiplier that a private key stands for: the first half of its digest, with five
binary digits set to fixed values. -/
def multiplier (secret : Bytes) : Nat :=
  let n := Bytes.toNatBE ((Digest.sha512.of secret).take 32).reverse
  1 <<< 254 + n % 1 <<< 254 / 8 * 8

/-- The public half of a private key. -/
def publicOf (secret : Bytes) : Bytes :=
  encode (multiply (multiplier secret) base)

end TokenAuthority.Edwards
