import TokenAuthority.AuthError
import TokenAuthority.Files.System
import TokenAuthority.Settings.Basic
import TokenAuthority.Toml.Document
import TokenAuthority.Toml.Printer
import TokenAuthority.Toml.Record

/-!
# Settings in a document

A document may tell any of the settings, in two tables; those that it does not tell keep
their defaults. Writing tells them all.
-/

namespace TokenAuthority

namespace TokenSettings

/-- The kinds of stores with their names. -/
def stores : List (String × StoreKind) := StoreKind.all.map fun k => (k.name, k)

/-- The entries about tokens. -/
def record : Toml.Record TokenSettings where
  name := "TokenAuthConfig"
  fields := [
    ⟨"signature_algorithm", fun c item => do return { c with algorithm := ← item.toText }⟩,
    ⟨"keystore_type", fun c item => do return { c with store := ← item.toChoice stores }⟩,
    ⟨"keystore_path", fun c item => do return { c with folder := ← item.textAs "path string" }⟩,
    ⟨"max_in_memory_keys", fun c item => do return { c with capacity := ← item.toCount }⟩,
    ⟨"token_lifetime", fun c item => do return { c with lifetime := ← item.toInteger }⟩]

/-- The entries of the settings. -/
def write (c : TokenSettings) : List Char :=
  Toml.writeTextEntry "signature_algorithm" c.algorithm ++
    Toml.writeTextEntry "keystore_type" c.store.name ++
    Toml.writeTextEntry "keystore_path" c.folder ++
    Toml.writeIntegerEntry "max_in_memory_keys" c.capacity ++
    Toml.writeIntegerEntry "token_lifetime" c.lifetime

end TokenSettings

namespace LogSettings

/-- The entries about the log. -/
def record : Toml.Record LogSettings where
  name := "LoggingConfig"
  fields := [⟨"rust_log", fun c item => do return { c with filter := some (← item.toText) }⟩]

/-- The entries of the settings. -/
def write (c : LogSettings) : List Char :=
  match c.filter with
  | some s => Toml.writeTextEntry "rust_log" s
  | none => []

end LogSettings

namespace Settings

/-- The tables of a document. -/
def record : Toml.Record Settings where
  name := "ClapConfig"
  fields := [
    ⟨"token_auth", fun c item => do
      return { c with tokens := ← TokenSettings.record.ofItem c.tokens item }⟩,
    ⟨"logging", fun c item => do return { c with log := ← LogSettings.record.ofItem c.log item }⟩]

/-- The settings of a document. -/
def read (s : String) : Except Toml.Error Settings := do
  record.ofEntries {} (← Toml.read s)

/-- The document of settings. -/
def write (c : Settings) : String :=
  String.ofList (Toml.writeHeader "token_auth" ++ c.tokens.write ++ '\n' ::
    Toml.writeHeader "logging" ++ c.log.write)

/-- The settings in a file. -/
def load {m : Type → Type} [Monad m] (fs : FileSystem m) (path : String) :
    m (Except AuthError Settings) := do
  match ← fs.readText path with
  | .error e =>
    return .error (.within ("cannot read the configuration file " ++ path) e.message)
  | .ok text => return (read text).mapError fun e => .conversion (.toml e)

end Settings

end TokenAuthority
