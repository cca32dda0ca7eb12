import TokenAuthority.KeyRing
import TokenAuthority.Token.Compact

/-!
# Verifying tokens

Four questions in a fixed order, and the first that fails decides: has the token the
right form, does the ring hold its key, is the signature one of that key, and does the
token still hold?
-/

namespace TokenAuthority

namespace Token

/-- Refuses a signature that is none of the key, and every token that tells another
algorithm than that of the key. -/
def checkSignature (t : Token) (k : SigningKey) : Except Refusal Unit :=
  if t.header.algorithm = k.algorithm ∧
      (k.material.verify k.algorithm t.signed t.signature).toOption = some true then .ok ()
  else .error .badSignature

/-- Refuses a token from the second of its expiry on. -/
def checkExpiry (t : Token) (now : Instant) : Except Refusal Unit :=
  if now.seconds < t.claims.expiresAt then .ok () else .error .expired

/-- The token that a text stands for. -/
def read (data : String) : Except Refusal Token :=
  (parse data).mapError Refusal.malformed

end Token

namespace KeyRing

/-- The key of a token. -/
def keyOf (r : KeyRing) (t : Token) : Except Refusal SigningKey :=
  match r.find? t.header.keyId with
  | some k => .ok k
  | none => .error (.unknownKey t.header.keyId)

/-- The subject of a token that a key of the ring signed and that still holds. -/
def verify (r : KeyRing) (data : String) (now : Instant) : Except Refusal String := do
  let t ← Token.read data
  let k ← r.keyOf t
  t.checkSignature k
  t.checkExpiry now
  return t.claims.subject

end KeyRing

end TokenAuthority
