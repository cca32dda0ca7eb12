import TokenAuthority.Crypto.Hmac
import TokenAuthority.Crypto.Prime

/-!
# RSA signatures

The two ways of turning a digest into a number below the modulus (the fixed filling of
PKCS #1 version 1.5, and PSS with a salt as long as the digest), the private and the
public operation, and the making of keys. A key may be one for the salted filling alone,
and be bound to a digest then.
-/

namespace TokenAuthority.Rsa

/-! ### What a key is for -/

/-- Which filling a signature uses. -/
inductive Filling where
  | fixed
  | salted
  deriving DecidableEq, Repr

/-- The digests that a key can be bound to. No token is signed with the first two or the last
two. -/
inductive BoundDigest where
  | sha1
  | sha224
  | usual (d : Digest)
  | sha512Cut224
  | sha512Cut256
  deriving DecidableEq, Repr

/-- What a key for the salted filling is bound to: its digest, the digest of the mask, and how
long a salt is at least. -/
structure Limits where
  digest : BoundDigest
  maskDigest : BoundDigest
  leastSalt : Nat
  deriving DecidableEq, Repr

/-- What a key is for. -/
inductive Use where
  | any
  /-- The salted filling, within limits if there are any. -/
  | salted (limits : Option Limits)
  deriving DecidableEq, Repr

namespace Use

/-- Whether a key is one for both fillings. -/
def isAny : Use → Bool
  | any => true
  | salted _ => false

/-- Whether signatures with a filling and a digest are allowed, with a salt as long as the
digest. -/
def allows : Use → Filling → Digest → Bool
  | any, _, _ => true
  | salted none, f, _ => f == .salted
  | salted (some l), f, d => f == .salted && l.digest == .usual d && l.maskDigest == .usual d &&
      l.leastSalt ≤ d.size

end Use

/-! ### Keys -/

/-- A modulus and the exponent that undoes signing. -/
structure PublicKey where
  modulus : Nat
  exponent : Nat
  use : Use
  deriving DecidableEq, Repr

/-- A private key with the parts that speed up signing: the two primes, the secret
exponent reduced for each, and the inverse of the second modulo the first. -/
structure PrivateKey where
  modulus : Nat
  exponent : Nat
  secret : Nat
  first : Nat
  second : Nat
  firstExponent : Nat
  secondExponent : Nat
  coefficient : Nat
  use : Use
  deriving DecidableEq, Repr

/-- The public half. -/
def PrivateKey.toPublic (k : PrivateKey) : PublicKey :=
  ⟨k.modulus, k.exponent, k.use⟩

/-- How many binary digits the modulus has. -/
def PublicKey.bits (k : PublicKey) : Nat := Modular.bits k.modulus

/-- How many octets a signature has. -/
def PublicKey.size (k : PublicKey) : Nat := Bytes.width k.modulus

/-! ### The two operations -/

/-- How many words of 64 binary digits a number has. -/
def words (n : Nat) : Nat := (Modular.bits n + 63) / 64

/-- Whether the public operation can be done: powers are taken modulo odd numbers only, and
the numbers must not be too large. -/
def PublicKey.isWorkable (k : PublicKey) : Bool :=
  k.modulus % 2 == 1 && k.exponent < k.modulus && k.bits ≤ 16384 &&
    (k.bits ≤ 3072 || Modular.bits k.exponent ≤ 64)

/-- Whether the private operation can be done: powers are taken modulo odd numbers only, and
for primes of one length the coefficient must not have more words than they have. -/
def PrivateKey.isWorkable (k : PrivateKey) : Bool :=
  k.modulus % 2 == 1 && k.first % 2 == 1 && k.second % 2 == 1 &&
    (Modular.bits k.first != Modular.bits k.second || words k.coefficient ≤ words k.first)

/-- The public operation. -/
def PublicKey.apply (k : PublicKey) (m : Nat) : Nat :=
  Modular.pow k.modulus m k.exponent

/-- The private operation done modulo each prime and put together. -/
def PrivateKey.applySplit (k : PrivateKey) (m : Nat) : Nat :=
  let a := Modular.pow k.first m k.firstExponent
  let b := Modular.pow k.second m k.secondExponent
  let h := Modular.sub k.first a (b % k.first) * k.coefficient % k.first
  b + h * k.second

/-- The private operation. The quick way is checked against the public operation, and
gives way to the plain power if it went wrong. -/
def PrivateKey.apply (k : PrivateKey) (m : Nat) : Nat :=
  let quick := k.applySplit m
  if k.toPublic.apply quick = m then quick else Modular.pow k.modulus m k.secret

/-! ### Filling up a digest -/

/-- The octets that name a digest in front of it. -/
def digestInfo : Digest → Bytes
  | .sha256 => [0x30, 0x31, 0x30, 0x0d, 0x06, 0x09, 0x60, 0x86, 0x48, 0x01, 0x65, 0x03, 0x04, 0x02,
      0x01, 0x05, 0x00, 0x04, 0x20]
  | .sha384 => [0x30, 0x41, 0x30, 0x0d, 0x06, 0x09, 0x60, 0x86, 0x48, 0x01, 0x65, 0x03, 0x04, 0x02,
      0x02, 0x05, 0x00, 0x04, 0x30]
  | .sha512 => [0x30, 0x51, 0x30, 0x0d, 0x06, 0x09, 0x60, 0x86, 0x48, 0x01, 0x65, 0x03, 0x04, 0x02,
      0x03, 0x05, 0x00, 0x04, 0x40]

/-- The named digest behind at least eight octets of ones; none if there is no room. -/
def fixedFilling (size : Nat) (d : Digest) (message : Bytes) : Option Bytes :=
  let named := digestInfo d ++ d.of message
  if named.length + 11 ≤ size then
    some ([0x00, 0x01] ++ List.replicate (size - named.length - 3) 0xFF ++ [0x00] ++ named)
  else none

/-- `n` octets derived from a seed by digesting it with a counter. -/
def mask (d : Digest) (seed : Bytes) (n : Nat) : Bytes :=
  ((List.range ((n + d.size - 1) / d.size)).flatMap fun i =>
    d.of (seed ++ Bytes.ofNatBE 4 i)).take n

/-- The octets with those bits of the first cleared that lie above `bits` binary digits. -/
def clearAbove (bits : Nat) : Bytes → Bytes
  | [] => []
  | b :: rest => UInt8.ofNat (b.toNat % 1 <<< (bits - 8 * rest.length)) :: rest

/-- The digest of a message's digest and a salt. -/
def salted (d : Digest) (message salt : Bytes) : Bytes :=
  d.of (List.replicate 8 0 ++ d.of message ++ salt)

/-- The salted digest and its salt, masked, in `bits` binary digits; none if there is
no room. -/
def saltedFilling (bits : Nat) (d : Digest) (message salt : Bytes) : Option Bytes :=
  let size := (bits + 7) / 8
  if d.size + salt.length + 2 ≤ size then
    let hash := salted d message salt
    let block := List.replicate (size - d.size - salt.length - 2) 0 ++ [0x01] ++ salt
    let masked := clearAbove (bits - 8 * (d.size + 1)) (Bytes.xor block (mask d hash block.length))
    some (masked ++ hash ++ [0xBC])
  else none

/-- Whether octets are the salted filling of `bits` binary digits of a message with some
salt as long as the digest. -/
def isSaltedFilling (bits : Nat) (d : Digest) (message filling : Bytes) : Bool :=
  let size := (bits + 7) / 8
  if 2 * d.size + 2 ≤ size then
    let width := size - d.size - 1
    let hash := (filling.drop width).take d.size
    let block := clearAbove (bits - 8 * (d.size + 1)) (Bytes.xor (filling.take width) (mask d hash width))
    let salt := block.drop (width - d.size)
    saltedFilling bits d message salt == some filling
  else false

/-! ### Signing and checking -/

/-- A message filled up to the size of a modulus; none if there is no room. The salt is
drawn from the secret exponent and the message. -/
def filled? (k : PrivateKey) (f : Filling) (d : Digest) (message : Bytes) : Option Bytes :=
  match f with
  | .fixed => fixedFilling k.toPublic.size d message
  | .salted =>
    saltedFilling (k.toPublic.bits - 1) d message
      (expand (Bytes.ofNatMin k.secret) (d.of message) d.size)

/-- The signature of a message; none if the key is not for it or cannot do it, or if the
modulus is too small for the filling. -/
def sign (k : PrivateKey) (f : Filling) (d : Digest) (message : Bytes) : Option Bytes :=
  if k.use.allows f d ∧ k.isWorkable then
    (filled? k f d message).map fun bs => Bytes.ofNatBE k.toPublic.size (k.apply bs.toNatBE)
  else none

/-- Whether a signature is one of the message. With the fixed filling the signature must
have the length of the modulus; with the salted one zeros in front may be missing. -/
def verify (k : PublicKey) (f : Filling) (d : Digest) (message signature : Bytes) : Bool :=
  let n := signature.toNatBE
  if k.use.allows f d ∧ k.isWorkable ∧ signature.length ≤ k.size ∧ n < k.modulus then
    match f with
    | .fixed =>
      signature.length == k.size &&
        fixedFilling k.size d message == some (Bytes.ofNatBE k.size (k.apply n))
    | .salted =>
      let m := k.apply n
      Modular.bits m ≤ k.bits - 1 &&
        isSaltedFilling (k.bits - 1) d message (Bytes.ofNatBE ((k.bits + 6) / 8) m)
  else false

/-! ### Making keys -/

/-- How many candidates are looked at for a prime. -/
def patience : Nat := 100000

/-- A prime of 1024 binary digits, the two highest of them set. One less than it is no
multiple of the prime 65537, so that this exponent has an inverse. -/
def makePrime (seed label : Bytes) : Nat :=
  let start := 3 <<< 1022 + expandBelow seed label (1 <<< 1021) / 2 * 2 + 1
  let p := Prime.search patience start
  if p % 65537 = 1 then Prime.search patience (p + 2) else p

/-- A private key of 2048 binary digits made from a seed. -/
def generate (seed : Bytes) : PrivateKey :=
  let p := makePrime seed [1]
  let q := makePrime seed [2]
  let d := Modular.inverse ((p - 1) * (q - 1) / Nat.gcd (p - 1) (q - 1)) 65537
  { modulus := p * q
    exponent := 65537
    secret := d
    first := p
    second := q
    firstExponent := d % (p - 1)
    secondExponent := d % (q - 1)
    coefficient := Modular.inverse p q
    use := .any }

end TokenAuthority.Rsa
