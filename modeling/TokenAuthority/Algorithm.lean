import TokenAuthority.Crypto.Curve
import TokenAuthority.Crypto.Hmac

/-!
# Signature algorithms

An algorithm is a scheme and a digest, and all twelve pairs are algorithms. Its name is
the two letters of the scheme and the length of the digest in binary digits.
-/

namespace TokenAuthority

/-- How a digest is signed. -/
inductive Scheme where
  /-- With a shared secret. -/
  | hmac
  /-- With a key on a curve. -/
  | ecdsa
  /-- With an RSA key and the fixed filling. -/
  | rsaFixed
  /-- With an RSA key and the salted filling. -/
  | rsaSalted
  deriving DecidableEq, Repr

/-- What a key consists of: a secret, or a private and a public half. -/
inductive Family where
  | symmetric
  | asymmetric
  deriving DecidableEq, Repr

/-- A signature algorithm. -/
structure Algorithm where
  scheme : Scheme
  digest : Digest
  deriving DecidableEq, Repr

namespace Scheme

/-- The letters that stand for a scheme. -/
def letters : Scheme → String
  | hmac => "HS"
  | ecdsa => "ES"
  | rsaFixed => "RS"
  | rsaSalted => "PS"

end Scheme

namespace Digest

/-- The length of a digest in binary digits. -/
def digits : Digest → String
  | sha256 => "256"
  | sha384 => "384"
  | sha512 => "512"

end Digest

namespace Family

/-- The name of a family. -/
def name : Family → String
  | symmetric => "Symmetric"
  | asymmetric => "Asymmetric"

end Family

namespace Algorithm

/-- The twelve algorithms, scheme by scheme. -/
def all : List Algorithm :=
  [Scheme.hmac, .ecdsa, .rsaFixed, .rsaSalted].flatMap fun s =>
    [Digest.sha256, .sha384, .sha512].map fun d => ⟨s, d⟩

theorem mem_all (a : Algorithm) : a ∈ all := by
  obtain ⟨s, d⟩ := a
  cases s <;> cases d <;> decide

/-- The name of an algorithm. -/
def name (a : Algorithm) : String :=
  a.scheme.letters ++ a.digest.digits

/-- The algorithm with a name. -/
def ofName? (s : String) : Option Algorithm :=
  all.find? fun a => a.name == s

theorem ofName?_name (a : Algorithm) : ofName? a.name = some a := by
  obtain ⟨s, d⟩ := a
  cases s <;> cases d <;> decide

theorem name_of_ofName? {s : String} {a : Algorithm} (h : ofName? s = some a) : a.name = s := by
  simpa using List.find?_some h

/-- The family whose keys an algorithm signs with. -/
def family (a : Algorithm) : Family :=
  match a.scheme with
  | .hmac => .symmetric
  | _ => .asymmetric

/-- Whether an algorithm signs with a shared secret. -/
def isSymmetric (a : Algorithm) : Bool :=
  a.family == .symmetric

/-- Whether an algorithm signs with an RSA key. -/
def isRsa (a : Algorithm) : Bool :=
  a.scheme == .rsaFixed || a.scheme == .rsaSalted

/-- Whether an algorithm uses the salted filling. -/
def isSalted (a : Algorithm) : Bool :=
  a.scheme == .rsaSalted

/-- How many octets a fresh secret has, for an algorithm with a shared secret. -/
def secretSize? (a : Algorithm) : Option Nat :=
  if a.scheme = .hmac then some a.digest.size else none

/-- The curve of the keys that an algorithm signs with. -/
def curve? (a : Algorithm) : Option Curve :=
  if a.scheme = .ecdsa then
    match a.digest with
    | .sha256 => some .p256
    | .sha384 => some .p384
    | .sha512 => some .p521
  else none

/-- How many octets each number of a signature has, for an algorithm on a curve. -/
def componentSize? (a : Algorithm) : Option Nat :=
  a.curve?.map Curve.orderSize

end Algorithm

namespace Curve

/-- The name a curve is known by. -/
def name : Curve → String
  | p256 => "prime256v1"
  | p384 => "secp384r1"
  | p521 => "secp521r1"
  | k256 => "secp256k1"

end Curve

end TokenAuthority
