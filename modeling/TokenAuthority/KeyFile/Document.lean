import TokenAuthority.SigningKey
import TokenAuthority.Text.Utf8
import TokenAuthority.Time.Rfc3339
import TokenAuthority.Toml.Document
import TokenAuthority.Toml.Printer
import TokenAuthority.Toml.Record

/-!
# Key documents

A key is kept as a document of flat entries: the algorithm, the form of the material, the
identifier, the instant of the key's making, and the material in base 64. A secret is one
entry, and a key pair has one for each half. Only the algorithm has to be there; which
other entries are needed depends on it.
-/

namespace TokenAuthority

/-- The entries of a key document. -/
structure KeyDocument where
  algorithm : String
  form : Option String
  keyId : Option String
  created : Option Instant
  secret : Option String
  privateHalf : Option String
  publicHalf : Option String
  deriving DecidableEq

namespace KeyDocument

/-- The document of a key. -/
def ofKey (k : SigningKey) : KeyDocument where
  algorithm := k.algorithm.name
  form := some (match k.material.family with
    | .symmetric => "RAW"
    | .asymmetric => "PKCS#8")
  keyId := some k.id
  created := some k.created
  secret := k.material.secret?.map Base64.standard.encodeText
  privateHalf := k.material.privateForm?.map Base64.standard.encodeText
  publicHalf := k.material.publicForm?.map Base64.standard.encodeText

/-! ### Writing -/

/-- An entry that may be left out. -/
def optionalEntry (key : String) : Option String → List Char
  | some value => Toml.writeTextEntry key value
  | none => []

/-- The text of a document. -/
def write (d : KeyDocument) : String :=
  String.ofList (Toml.writeTextEntry "algorithm" d.algorithm ++ optionalEntry "format" d.form ++
    optionalEntry "key_id" d.keyId ++
    optionalEntry "created_at" (d.created.map Rfc3339.writeShort) ++
    optionalEntry "key" d.secret ++ optionalEntry "private_key" d.privateHalf ++
    optionalEntry "public_key" d.publicHalf)

/-! ### Reading -/

/-- A document of which some entries were read. -/
structure Draft where
  algorithm : Option String := none
  form : Option String := none
  keyId : Option String := none
  created : Option Instant := none
  secret : Option String := none
  privateHalf : Option String := none
  publicHalf : Option String := none

/-- The instant that an item tells. -/
def instantOf (item : Toml.Item) : Except Toml.Error Instant := do
  match Rfc3339.read? (← item.textAs "an RFC 3339 formatted date and time string") with
  | some t => return t
  | none => throw .malformed

/-- The entries of a document. -/
def record : Toml.Record Draft where
  name := "PersistedKey"
  fields := [
    ⟨"algorithm", fun d item => do return { d with algorithm := ← item.toText }⟩,
    ⟨"format", fun d item => do return { d with form := ← item.toText }⟩,
    ⟨"key_id", fun d item => do return { d with keyId := ← item.toText }⟩,
    ⟨"created_at", fun d item => do return { d with created := ← instantOf item }⟩,
    ⟨"key", fun d item => do return { d with secret := ← item.toText }⟩,
    ⟨"private_key", fun d item => do return { d with privateHalf := ← item.toText }⟩,
    ⟨"public_key", fun d item => do return { d with publicHalf := ← item.toText }⟩]

/-- The document that a text stands for. -/
def read (s : String) : Except Toml.Error KeyDocument := do
  let d ← record.ofEntries {} (← Toml.read s)
  match d.algorithm with
  | some a => return ⟨a, d.form, d.keyId, d.created, d.secret, d.privateHalf, d.publicHalf⟩
  | none => throw (.missing "algorithm")

/-! ### Material -/

/-- The octets of an entry that has to be there. -/
def octets (name : String) : Option String → Except Corruption Bytes
  | none => .error (.missingEntry name)
  | some s => (Base64.standard.decode (Utf8.encode s)).mapError (.notBase64 name)

/-- The material of a document for an algorithm. -/
def material (d : KeyDocument) (a : Algorithm) : Except Corruption KeyMaterial := do
  match a.family with
  | .symmetric => return .secret (← octets "key" d.secret)
  | .asymmetric =>
    let privateForm ← octets "private_key" d.privateHalf
    let publicForm ← octets "public_key" d.publicHalf
    (KeyMaterial.ofWritten privateForm publicForm).mapError .badPair

end KeyDocument

end TokenAuthority
