import TokenAuthority.Credential

/-!
# Authenticators

An authenticator looks at a credential and accepts or rejects it. To reject is an answer
and not an error; the error is a credential that the authenticator has no use for.
-/

namespace TokenAuthority

/-- What an authenticator makes of a credential. -/
inductive Verdict where
  | accepted (principal : String)
  | rejected (cause : String)
  deriving DecidableEq

namespace Verdict

/-- Whether a credential was accepted. -/
def isAccepted : Verdict → Bool
  | accepted _ => true
  | rejected _ => false

/-- Whom a credential was accepted for. -/
def principal? : Verdict → Option String
  | accepted principal => some principal
  | rejected _ => none

/-- Why a credential was rejected. -/
def cause? : Verdict → Option String
  | accepted _ => none
  | rejected cause => some cause

end Verdict

/-- Something that looks at credentials. -/
structure Authenticator (m : Type → Type) where
  /-- Whether credentials of this shape are understood. -/
  supports : Credential → Bool
  authenticate : Credential → m (Except AuthError Verdict)

end TokenAuthority
