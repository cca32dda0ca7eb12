import TokenAuthority.Authenticator.Basic
import TokenAuthority.KeyFile.Store
import TokenAuthority.Settings.Checked
import TokenAuthority.Token.Issue
import TokenAuthority.Token.Verify

/-!
# The authenticator of tokens

It issues tokens signed with the current key of a ring and accepts those that the ring
verifies. Its callers do not learn why a token was rejected. Lifetimes are held in whole
milliseconds.
-/

namespace TokenAuthority

/-- The state of an authenticator of tokens. -/
structure TokenAuthenticator where
  ring : KeyRing
  lifetime : Duration

namespace TokenAuthenticator

/-- The name of the authenticator. -/
def name : String := "token"

/-- The only cause that is given for a rejection. -/
def notAuthenticated : String := "invalid bearer token"

/-- The error of a credential without a token. -/
def needsToken : AuthError :=
  .unsupportedCredential "the token authenticator requires a bearer token"

/-- The store that checked settings ask for. -/
def storeOf {m : Type → Type} [Monad m] (s : Surroundings m) (fs : FileSystem m) :
    StorePlace → KeyStore m
  | .memory => .inMemory
  | .folder path => KeyFile.store s fs ⟨path⟩

/-! ### Without effects -/

/-- The authenticator with another lifetime for the tokens to come. -/
def setLifetime (t : TokenAuthenticator) (lifetime : Duration) : TokenAuthenticator :=
  { t with lifetime := lifetime.cut }

/-- The subject of a token. -/
def verify (t : TokenAuthenticator) (data : String) (now : Instant) : Except Refusal String :=
  t.ring.verify data now

/-- Whether a credential exposes a token. -/
def supports (c : Credential) : Bool := c.bearer?.isSome

/-- The verdict on a credential at an instant. -/
def judge (t : TokenAuthenticator) (now : Instant) (c : Credential) :
    Except AuthError Verdict :=
  match c.bearer? with
  | none => .error needsToken
  | some data =>
    match t.verify data now with
    | .ok principal => .ok (.accepted principal)
    | .error _ => .ok (.rejected notAuthenticated)

/-! ### With a store -/

section

variable {m : Type → Type} [Monad m] (s : Surroundings m) (store : KeyStore m)

/-- What an operation answers, and the authenticator after it. -/
abbrev Outcome (α : Type) := Except AuthError α × TokenAuthenticator

/-- An authenticator with one key. -/
def start (c : CheckedSettings) : m (Except AuthError TokenAuthenticator) := do
  match ← KeyRing.seeded s store c.algorithm c.capacity with
  | .ok ring => return .ok ⟨ring, c.lifetime.cut⟩
  | .error e => return .error e

/-- Issues a token with the current key. -/
def issue (t : TokenAuthenticator) (principal : String) : m (Outcome IssuedToken) := do
  match ← t.ring.current s store with
  | (.error e, ring) => return (.error e, { t with ring := ring })
  | (.ok k, ring) =>
    let now ← s.now
    return (IssuedToken.issue k principal now t.lifetime, { t with ring := ring })

/-- Makes a new current key, and answers with its identifier. -/
def renew (t : TokenAuthenticator) : m (Outcome String) := do
  let (answer, ring) ← t.ring.rotate s store
  return (answer.map SigningKey.id, { t with ring := ring })

/-- Drops all keys. -/
def revoke (t : TokenAuthenticator) : m (Outcome Unit) := do
  let (answer, ring) ← t.ring.clear store
  return (answer, { t with ring := ring })

/-- The authenticator as one of a chain. -/
def toAuthenticator (t : TokenAuthenticator) : Authenticator m where
  supports := supports
  authenticate c := do return t.judge (← s.now) c

end

end TokenAuthenticator

end TokenAuthority
