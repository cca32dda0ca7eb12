import TokenAuthority.AuthError
import TokenAuthority.Files.System
import TokenAuthority.Settings.Basic

/-!
# Checked settings

Settings with which an authenticator can be made: the algorithm is known, a key can be
held, the lifetime is within its bounds, and the folder of the key file exists. The
folder is made if it is missing, and known by its true path.
-/

namespace TokenAuthority

/-- Where the current key is kept. -/
inductive StorePlace where
  | memory
  | folder (path : String)
  deriving DecidableEq

/-- Settings that were checked. -/
structure CheckedSettings where
  algorithm : Algorithm
  store : StorePlace
  capacity : Nat
  lifetime : Duration

namespace CheckedSettings

/-! ### Checking -/

/-- The settings as far as they can be checked without looking at files. -/
structure Values where
  algorithm : Algorithm
  capacity : Nat
  lifetime : Duration

/-- Checks all settings but the folder. -/
def values (c : TokenSettings) : Except Misconfiguration Values := do
  let some a := Algorithm.ofName? c.algorithm | throw (.unknownAlgorithm c.algorithm)
  if c.capacity = 0 then throw .noKeys
  let some d := Duration.ofSeconds? c.lifetime | throw (.lifetimeOutOfRange c.lifetime)
  return ⟨a, c.capacity, d⟩

variable {m : Type → Type} [Monad m] (fs : FileSystem m)

/-- The true path of a folder that is made if it is missing. A path that does not begin
at the root begins at `base`. -/
def trueFolder (path base : String) : m (Except Misconfiguration String) := do
  let path := Path.under base path
  let made ← if ← fs.isPresent path then pure (.ok ()) else fs.ensureFolders path
  match made with
  | .error e => return .error (.cannotCreate path e)
  | .ok () => return (← fs.resolve path).mapError (.cannotResolve path)

/-- Where the current key is to be kept. -/
def storePlace (c : TokenSettings) : m (Except Misconfiguration StorePlace) := do
  match c.store with
  | .memory => return .ok .memory
  | .plainFile =>
    match ← fs.workingFolder with
    | .error e => return .error (.noWorkingFolder e)
    | .ok base => return (← trueFolder fs c.folder base).map .folder

/-- Checks settings. -/
def ofSettings (c : TokenSettings) : m (Except AuthError CheckedSettings) := do
  match values c with
  | .error why => return .error (.configuration why)
  | .ok v =>
    match ← storePlace fs c with
    | .error why => return .error (.configuration why)
    | .ok place => return .ok ⟨v.algorithm, place, v.capacity, v.lifetime⟩

/-! ### Showing -/

/-- The place of the key as it is shown. -/
def shownPlace : StorePlace → String
  | .memory => "Memory"
  | .folder path => "Plainfile \x7b directory: " ++ Text.shownPath path ++ " \x7d"

/-- Settings as they are shown. -/
def shown (c : CheckedSettings) : String :=
  "TokenAuthParams \x7b signature_algorithm: " ++ Text.shown c.algorithm.name ++
    ", keystore: " ++ shownPlace c.store ++
    ", max_in_memory_keys: " ++ toString c.capacity ++
    ", token_lifetime_secs: " ++ toString c.lifetime.seconds ++ " \x7d"

end CheckedSettings

end TokenAuthority
