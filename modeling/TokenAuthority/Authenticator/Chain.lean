import TokenAuthority.Authenticator.Basic

/-!
# Chains of authenticators

The authenticators of a chain are asked in order, those that do not support the
credential left out. The first that accepts it, or fails, decides; if none does, the last
rejection stands.
-/

namespace TokenAuthority

/-- Authenticators in the order in which they are asked. -/
abbrev Chain (m : Type → Type) := List (Authenticator m)

namespace Chain

/-- What is said about a credential that no authenticator supports. -/
def unsupported : Verdict := .rejected "no authenticator supports this credential"

variable {m : Type → Type} [Monad m]

/-- Asks the authenticators of a chain; `last` stands if none of them decides. -/
def authenticateOr (c : Credential) : Verdict → Chain m → m (Except AuthError Verdict)
  | last, [] => return .ok last
  | last, a :: rest =>
    if a.supports c then do
      match ← a.authenticate c with
      | .error e => return .error e
      | .ok (.accepted principal) => return .ok (.accepted principal)
      | .ok (.rejected cause) => authenticateOr c (.rejected cause) rest
    else authenticateOr c last rest

/-- Asks the authenticators of a chain. -/
def authenticate (chain : Chain m) (c : Credential) : m (Except AuthError Verdict) :=
  authenticateOr c unsupported chain

end Chain

end TokenAuthority
