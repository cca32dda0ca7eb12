import TokenAuthority.Crypto.Sha2

/-!
# Digests and keyed digests

The three digests that tokens are signed with, HMAC over each of them, and the
expansion of a seed into as many octets as a caller wants.
-/

namespace TokenAuthority

/-- A digest of the SHA-2 family. -/
inductive Digest where
  | sha256
  | sha384
  | sha512
  deriving DecidableEq, Repr

namespace Digest

/-- How many octets the digest has. -/
def size : Digest → Nat
  | sha256 => 32
  | sha384 => 48
  | sha512 => 64

/-- How many octets it takes in at a time. -/
def block : Digest → Nat
  | sha256 => 64
  | sha384 => 128
  | sha512 => 128

/-- The digest of a message. -/
def of : Digest → Bytes → Bytes
  | sha256 => Sha2.sha256
  | sha384 => Sha2.sha384
  | sha512 => Sha2.sha512

/-- The secret as a whole block: digested first if it is longer, then filled up with
zeros. Two secrets with the same block are the same secret to HMAC. -/
def keyBlock (d : Digest) (secret : Bytes) : Bytes :=
  let short := if secret.length ≤ d.block then secret else d.of secret
  short ++ List.replicate (d.block - short.length) 0

/-- The keyed digest of a message. -/
def hmac (d : Digest) (secret message : Bytes) : Bytes :=
  let key := d.keyBlock secret
  let inner := d.of (key.map (· ^^^ 0x36) ++ message)
  d.of (key.map (· ^^^ 0x5c) ++ inner)

end Digest

/-- The first `n` octets of the stream of keyed digests of `label` and a counter. A seed
with different labels gives unrelated streams. -/
def expand (seed label : Bytes) (n : Nat) : Bytes :=
  ((List.range ((n + 63) / 64)).flatMap fun i =>
    Digest.sha512.hmac seed (label ++ Bytes.ofNatBE 4 i)).take n

/-- A number from 1 to `m - 1` drawn from the stream of a seed. Eight octets more than
`m` has are drawn, so that all numbers are as good as equally likely. -/
def expandBelow (seed label : Bytes) (m : Nat) : Nat :=
  Bytes.toNatBE (expand seed label (Bytes.width m + 8)) % (m - 1) + 1

end TokenAuthority
