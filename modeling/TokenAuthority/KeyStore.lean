import TokenAuthority.SigningKey

/-!
# Key stores

A key store keeps the current key of a ring between runs. Each of its operations may
fail. A store in memory keeps nothing: with it, every run begins without a key.
-/

namespace TokenAuthority

/-- The kinds of key stores. -/
inductive StoreKind where
  | memory
  | plainFile
  deriving DecidableEq, Repr

namespace StoreKind

/-- All kinds. -/
def all : List StoreKind := [memory, plainFile]

/-- The name of a kind. -/
def name : StoreKind → String
  | memory => "memory"
  | plainFile => "plainfile"

end StoreKind

/-- Where the current key is kept between runs. -/
structure KeyStore (m : Type → Type) where
  kind : StoreKind
  /-- The file that holds the key, if a file holds it. -/
  file? : Option String
  /-- The key that is kept, if it is one for the algorithm. -/
  load : Algorithm → m (Except AuthError (Option SigningKey))
  /-- Keeps a key in place of any other. -/
  activate : SigningKey → m (Except AuthError Unit)
  /-- Keeps no key any longer. -/
  discard : m (Except AuthError Unit)

namespace KeyStore

/-- The store that keeps nothing. -/
def inMemory {m : Type → Type} [Monad m] : KeyStore m where
  kind := .memory
  file? := none
  load _ := return .ok none
  activate _ := return .ok ()
  discard := return .ok ()

end KeyStore

end TokenAuthority
