import TokenAuthority.KeyStore
import TokenAuthority.Time.Instant

/-!
# Settings

What can be set, as it was given: how tokens are signed and where the key is kept, and
what is logged.
-/

namespace TokenAuthority

/-- How tokens are signed, and where the current key is kept. -/
structure TokenSettings where
  algorithm : String := "HS384"
  store : StoreKind := .memory
  /-- The folder of the key file, for a store with a file. -/
  folder : String := "./tessera-keys"
  /-- How many keys are held. -/
  capacity : Nat := 5
  /-- The lifetime of tokens in seconds. -/
  lifetime : Int := 3600
  deriving DecidableEq

/-- What is logged. -/
structure LogSettings where
  filter : Option String := none
  deriving DecidableEq

/-- All settings. -/
structure Settings where
  tokens : TokenSettings := {}
  log : LogSettings := {}
  deriving DecidableEq

end TokenAuthority
