import TokenAuthority.Authenticator.Token
import TokenAuthority.CommandLine.Arguments
import TokenAuthority.Settings.Document

/-!
# Running the program

Every run makes an authenticator of its own and does one thing with it. What a run
prints, and how it ends, is a report; only the outermost layer prints.
-/

namespace TokenAuthority

/-- How a run ends. -/
inductive Ending where
  | done
  | failed (error : AuthError)
  /-- The command line was not understood. -/
  | misused
  /-- Memory was asked for more than it can have. -/
  | overflowed
  deriving DecidableEq

/-- What a run prints, line by line, and how it ends. -/
structure Report where
  lines : List String
  ending : Ending
  deriving DecidableEq

namespace Report

/-- The number with which a program ends. -/
def exitCode (r : Report) : Nat :=
  match r.ending with
  | .done => 0
  | .failed _ => 1
  | .misused => 2
  | .overflowed => 101

/-- The line about an error. -/
def errorLine? (r : Report) : Option String :=
  match r.ending with
  | .failed e => some ("Error: " ++ e.shown)
  | .misused => some "Error: the command line is not understood"
  | .overflowed => some "capacity overflow"
  | .done => none

/-- The report of a run that ends as it should, or fails. -/
def of {α : Type} (answer : Except AuthError α) (lines : α → List String) : Report :=
  match answer with
  | .ok a => ⟨lines a, .done⟩
  | .error e => ⟨[], .failed e⟩

end Report

namespace Command

/-! ### What is printed -/

/-- What a token says, with the names in order. -/
def tokenText (t : Token) : String :=
  String.ofList (Json.spread 0
    [("claims", Json.spread 1
      [("exp", Json.writtenInteger t.claims.expiresAt),
        ("iat", Json.writtenInteger t.claims.issuedAt),
        ("sub", Json.quoted t.claims.subject)]),
      ("header", Json.spread 1 t.header.members)])

/-- The lines about an authenticator and its store. -/
def infoLines {m : Type → Type} (store : KeyStore m) (t : TokenAuthenticator) : List String :=
  let a := t.ring.algorithm
  ["signature algorithm: " ++ a.name,
    "symmetric: " ++ (if a.isSymmetric then "true" else "false"),
    "keystore: " ++ store.kind.name] ++
  (store.file?.map fun path => "key file: " ++ path).toList ++
  ["keys: " ++ toString t.ring.size ++ "/" ++ toString t.ring.capacity,
    "token lifetime: " ++ toString t.lifetime.seconds ++ "s"]

/-! ### Commands -/

section

variable {m : Type → Type} [Monad m] (s : Surroundings m) (store : KeyStore m)

/-- The authenticator for tokens with a lifetime of their own. -/
def withLifetime (t : TokenAuthenticator) (lifetime : Option Int) :
    Except AuthError TokenAuthenticator :=
  match lifetime with
  | none => .ok t
  | some n =>
    match Duration.ofSeconds? n with
    | some d => .ok (t.setLifetime d)
    | none => .error (.invalidRequest (.lifetimeOutOfRange n))

/-- Issues a token and tells until when it holds. -/
def runIssue (t : TokenAuthenticator) (principal : String) (lifetime : Option Int) :
    m Report := do
  match withLifetime t lifetime with
  | .error e => return ⟨[], .failed e⟩
  | .ok t =>
    let (answer, _) ← t.issue s store principal
    return .of answer fun token =>
      [token.data, "valid before: " ++ Rfc3339.write token.validBefore]

/-- Runs a command on an authenticator. -/
def run (t : TokenAuthenticator) : Command → m Report
  | issue principal lifetime => runIssue s store t principal lifetime
  | verify token => do
    return .of ((t.verify token (← s.now)).mapError .verification) fun subject => [subject]
  | inspect token =>
    return .of ((Token.read token).mapError .verification) fun token => [tokenText token]
  | renew => do
    let (answer, _) ← t.renew s store
    return .of answer fun id => ["current signing key: " ++ id]
  | revoke => do
    let (answer, _) ← t.revoke store
    return .of answer fun () => ["all signing keys revoked"]
  | info => return ⟨infoLines store t, .done⟩

end

end Command

namespace Arguments

variable {m : Type → Type} [Monad m] (s : Surroundings m) (fs : FileSystem m)

/-- The settings: those of the file if there is one. -/
def loadSettings (a : Arguments) : m (Except AuthError Settings) :=
  match a.settingsFile with
  | some path => Settings.load fs path
  | none => return .ok a.settings

/-- Runs the program with arguments that were understood. -/
def run (a : Arguments) : m Report := do
  match ← a.loadSettings fs with
  | .error e => return ⟨[], .failed e⟩
  | .ok settings =>
    match ← CheckedSettings.ofSettings fs settings.tokens with
    | .error e => return ⟨[], .failed e⟩
    | .ok checked =>
      let store := TokenAuthenticator.storeOf s fs checked.store
      match ← TokenAuthenticator.start s store checked with
      | .error e => return ⟨[], .failed e⟩
      | .ok t =>
        if t.ring.isAllocated then a.command.run s store t else return ⟨[], .overflowed⟩

end Arguments

/-- The name of the program and its version. -/
def versionLine : String := "tessera 0.3.0"

/-- Runs the program with the words of a command line. -/
def runProgram {m : Type → Type} [Monad m] (s : Surroundings m) (fs : FileSystem m)
    (environment : Environment) (args : List String) : m Report := do
  let environment ← environment.addLocal fs
  if Arguments.asksVersion args then return ⟨[versionLine], .done⟩
  match Arguments.read environment args with
  | none => return ⟨[], .misused⟩
  | some a => a.run s fs

end TokenAuthority
