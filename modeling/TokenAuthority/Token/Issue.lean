import TokenAuthority.SigningKey
import TokenAuthority.Token.Compact

/-!
# Issuing tokens

A token holds from the second in which it is issued, for a lifetime that is rounded up
to whole seconds. The lifetime may be negative: then the token has expired already. The
second of expiry has to be a number of 64 binary digits and one that an instant has.
-/

namespace TokenAuthority

/-- A token as it is handed out. -/
structure IssuedToken where
  data : String
  created : Instant
  validBefore : Instant
  deriving DecidableEq

namespace IssuedToken

/-- The instant at which a second of a token begins. -/
def instant (seconds : Int) : Except AuthError Instant :=
  match Instant.ofSeconds? seconds with
  | some t => .ok t
  | none => .error (.conversion (.timestampOutOfRange seconds))

/-- Whether a number has 64 binary digits, one of them for the sign. -/
def IsWord (n : Int) : Prop := -9223372036854775808 ≤ n ∧ n < 9223372036854775808

instance (n : Int) : Decidable (IsWord n) := inferInstanceAs (Decidable (_ ∧ _))

/-- The claims of a token. -/
def claims (principal : String) (now : Instant) (lifetime : Duration) : Claims :=
  ⟨principal, now.seconds, now.seconds + lifetime.secondsUp⟩

/-- The header of a token. -/
def header (key : SigningKey) : Header :=
  ⟨key.algorithm, key.id, some Header.tokenType⟩

/-- The text of a token: the parts with dots between them. -/
def text (header claims signature : List Char) : String :=
  String.ofList (header ++ '.' :: (claims ++ '.' :: signature))

/-- A token for a principal, which holds for a lifetime from now on. -/
def issue (key : SigningKey) (principal : String) (now : Instant) (lifetime : Duration) :
    Except AuthError IssuedToken := do
  if principal = "" then throw (.invalidRequest .emptyPrincipal)
  let c := claims principal now lifetime
  if ¬IsWord c.expiresAt then throw (.conversion (.lifetimeOverflow lifetime))
  let first := Base64.url.encodeChars (header key).write
  let second := Base64.url.encodeChars c.write
  let signature ← (key.material.sign key.algorithm (Token.signedForm first second)).mapError
    AuthError.cryptographic
  let created ← instant c.issuedAt
  let validBefore ← instant c.expiresAt
  return ⟨text first second (Base64.url.encodeChars signature), created, validBefore⟩

end IssuedToken

end TokenAuthority
