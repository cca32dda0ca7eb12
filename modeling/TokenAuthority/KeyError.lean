import TokenAuthority.Algorithm

/-!
# What goes wrong with key material

The causes, the category of each, and its text.
-/

namespace TokenAuthority

/-- The categories of errors about key material. -/
inductive KeyError.Category where
  | conversion
  | general
  | size
  | unsupported
  | engine
  deriving DecidableEq, Repr

/-- An error about key material. -/
inductive KeyError where
  | emptySecret
  /-- A secret was to be used with an algorithm of key pairs. -/
  | secretCannotSign (a : Algorithm)
  /-- A key pair was to be used with an algorithm of secrets. -/
  | pairCannotSign (a : Algorithm)
  | needsCurveKey (a : Algorithm)
  | wrongCurve (a : Algorithm)
  | needsRsaKey (a : Algorithm)
  | unreadablePrivateKey
  | unreadablePublicKey
  | halvesDiffer
  /-- The key is not one for the signature, or its numbers do not allow it. -/
  | signingFailed
  /-- An error that arose elsewhere. -/
  | stated (category : KeyError.Category) (text : String)
  deriving DecidableEq, Repr

namespace KeyError

/-- The category of an error. -/
def category : KeyError → Category
  | emptySecret => .size
  | secretCannotSign _ => .unsupported
  | pairCannotSign _ => .unsupported
  | needsCurveKey _ => .unsupported
  | wrongCurve _ => .unsupported
  | needsRsaKey _ => .unsupported
  | unreadablePrivateKey => .conversion
  | unreadablePublicKey => .conversion
  | halvesDiffer => .conversion
  | signingFailed => .engine
  | stated c _ => c

/-- The cause in words. -/
def reason : KeyError → String
  | emptySecret => "empty HMAC secret"
  | secretCannotSign a => "a symmetric secret cannot sign with " ++ a.name
  | pairCannotSign a => "a key pair cannot sign with " ++ a.name
  | needsCurveKey a => a.name ++ " requires an EC key"
  | wrongCurve a => "the EC key curve does not match " ++ a.name
  | needsRsaKey a => a.name ++ " requires an RSA key"
  | unreadablePrivateKey => "invalid PKCS#8 private key: not the form of a key"
  | unreadablePublicKey => "invalid SPKI public key: not the form of a key"
  | halvesDiffer => "the public key does not match the private key"
  | signingFailed => "Error: the key does not sign"
  | stated _ text => text

/-- What stands before the cause in an error of a category. -/
def Category.label : Category → String
  | conversion => "Conversion Error: "
  | general => ""
  | size => "Invalid size: "
  | unsupported => "Not Supported: "
  | engine => "OpenSSL Error: "

/-- The text of an error. -/
def message (e : KeyError) : String :=
  e.category.label ++ e.reason

end KeyError

end TokenAuthority
