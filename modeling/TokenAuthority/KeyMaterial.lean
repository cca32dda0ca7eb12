import TokenAuthority.Crypto.KeyPair
import TokenAuthority.KeyError

/-!
# Key material

What a signing key signs with: a secret, or the two halves of a key pair. `checkSuits` says
which algorithms material can be used with, and `sign` and `verify` begin with it, so
they refuse unsuitable material with the same error. A signature that is no signature
of the message, whatever its length, is an answer of `verify` and not an error.
-/

namespace TokenAuthority

/-- A secret or a key pair. -/
inductive KeyMaterial where
  | secret (octets : Bytes)
  | pair (privateKey : PrivateKey) (publicKey : PublicKey)
  deriving DecidableEq, Repr

namespace KeyMaterial

/-! ### Making material -/

/-- Fresh material for an algorithm, made from a seed. -/
def generate (a : Algorithm) (seed : Bytes) : KeyMaterial :=
  match a.secretSize?, a.curve? with
  | some n, _ => .secret (expand seed [0] n)
  | none, some c => let k := Ecdsa.generate c seed; .pair (.ec k) (.ec k.toPublic)
  | none, none => let k := Rsa.generate seed; .pair (.rsa k) (.rsa k.toPublic)

/-- The pair of a private key and the public half that belongs to it. -/
def ofPrivateKey (k : PrivateKey) : KeyMaterial :=
  .pair k k.toPublic

/-- The pair of two written halves, which must belong together. -/
def ofWritten (privateForm publicForm : Bytes) : Except KeyError KeyMaterial := do
  let some k := PrivateKey.ofPkcs8? privateForm | throw .unreadablePrivateKey
  let some p := PublicKey.ofSpki? publicForm | throw .unreadablePublicKey
  if k.toPublic.isSame p then return .pair k p else throw .halvesDiffer

/-! ### Looking at material -/

/-- The family of material. -/
def family : KeyMaterial → Family
  | secret _ => .symmetric
  | pair _ _ => .asymmetric

/-- The octets of a secret. -/
def secret? : KeyMaterial → Option Bytes
  | secret octets => some octets
  | pair _ _ => none

/-- The written private half of a pair. -/
def privateForm? : KeyMaterial → Option Bytes
  | secret _ => none
  | pair k _ => some k.toPkcs8

/-- The written public half of a pair. -/
def publicForm? : KeyMaterial → Option Bytes
  | secret _ => none
  | pair _ p => some p.toSpki

/-- Refuses material that an algorithm cannot sign with. -/
def checkSuits (m : KeyMaterial) (a : Algorithm) : Except KeyError Unit :=
  match m with
  | secret octets =>
    if a.isSymmetric then
      if octets = [] then .error .emptySecret else .ok ()
    else .error (.secretCannotSign a)
  | pair k _ =>
    if a.isSymmetric then .error (.pairCannotSign a)
    else
      match a.curve?, k with
      | some c, .ec k => if k.curve = c then .ok () else .error (.wrongCurve a)
      | some _, _ => .error (.needsCurveKey a)
      | none, .rsa _ => .ok ()
      | none, _ => .error (.needsRsaKey a)

/-- The number that stands for the kind of a public key where material is shown. -/
def kindNumber : PublicKey → Nat
  | .rsa k => if k.use.isAny then 6 else 912
  | .ec _ => 408
  | .edwards _ => 1087

/-- Material as it is shown, without a word of what is to be kept secret. -/
def shown : KeyMaterial → String
  | secret octets => "Symmetric \x7b secret_len: " ++ toString octets.length ++ " \x7d"
  | pair _ p => "AsymmetricPair \x7b key_type: Id(" ++ toString (kindNumber p) ++ "), bits: " ++
      toString p.bits ++ ", .. \x7d"

/-! ### Signatures -/

/-- The filling of an algorithm when a message is signed with an RSA key. -/
def signedFilling (a : Algorithm) : Rsa.Filling :=
  if a.isSalted then .salted else .fixed

/-- The filling of an algorithm when a signature is checked with an RSA key. -/
def checkedFilling (a : Algorithm) : Rsa.Filling :=
  if a.isSalted then .salted else .fixed

/-- The signature of a message with a private key that suits the algorithm. -/
def signPair (k : PrivateKey) (a : Algorithm) (message : Bytes) : Except KeyError Bytes :=
  match k with
  | .ec k => .ok ((Ecdsa.sign k a.digest message).encode k.curve.orderSize)
  | .rsa k =>
    match Rsa.sign k (signedFilling a) a.digest message with
    | some signature => .ok signature
    | none => .error .signingFailed
  | .edwards _ => .error (.needsRsaKey a)

/-- Whether a signature is one of the message under a public key of the kind that the
algorithm needs. -/
def verifyPair (p : PublicKey) (a : Algorithm) (message signature : Bytes) : Bool :=
  match p with
  | .ec p =>
    match Ecdsa.Pair.decode? p.curve.orderSize signature with
    | some numbers => Ecdsa.verify p a.digest message numbers
    | none => false
  | .rsa p => Rsa.verify p (checkedFilling a) a.digest message signature
  | .edwards _ => false

/-- The signature of a message. -/
def sign (m : KeyMaterial) (a : Algorithm) (message : Bytes) : Except KeyError Bytes := do
  m.checkSuits a
  match m with
  | secret octets => return a.digest.hmac octets message
  | pair k _ => signPair k a message

/-- Whether a signature is one of the message. -/
def verify (m : KeyMaterial) (a : Algorithm) (message signature : Bytes) :
    Except KeyError Bool := do
  m.checkSuits a
  match m with
  | secret octets =>
    let expected := a.digest.hmac octets message
    return if h : expected.length = signature.length then Bytes.agree expected signature h
      else false
  | pair _ p => return verifyPair p a message signature

end KeyMaterial

end TokenAuthority
