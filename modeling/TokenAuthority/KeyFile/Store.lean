import TokenAuthority.Files.System
import TokenAuthority.KeyFile.Document
import TokenAuthority.KeyStore
import TokenAuthority.Surroundings

/-!
# Keys in a file

A store that keeps the current key in a file of a folder. The file is replaced as a
whole: the document is written beside it first, and then moved to its place. A document
without an identifier is given one, and kept with it.
-/

namespace TokenAuthority

/-- A folder with a key file. -/
structure KeyFile where
  folder : String

namespace KeyFile

/-- The path of the key file. -/
def path (f : KeyFile) : String := Path.under f.folder "jwt-key.toml"

/-- Where the document of the next key is written first. -/
def draftPath (f : KeyFile) : String := Path.under f.folder "jwt-key.toml.tmp"

/-- What a document tells about a key, as far as it is for an algorithm. -/
structure Contents where
  keyId : Option String
  created : Option Instant
  material : KeyMaterial

/-- The error of a corrupt key file. -/
def corrupt (why : Corruption) : AuthError := .configuration (.corrupt why)

/-- The contents of a document for an algorithm; nothing if it is for another. -/
def contents (a : Algorithm) (s : String) : Except Corruption (Option Contents) := do
  let d ← (KeyDocument.read s).mapError .notDocument
  match Algorithm.ofName? d.algorithm with
  | none => throw (.unknownAlgorithm d.algorithm)
  | some b => if b = a then return some ⟨d.keyId, d.created, ← d.material a⟩ else return none

section

variable {m : Type → Type} [Monad m] (s : Surroundings m) (fs : FileSystem m) (f : KeyFile)

/-- Puts the document of a key in place of the file. That the file cannot be made private
is no error. -/
def activate (k : SigningKey) : m (Except AuthError Unit) := do
  let document := Utf8.encode (KeyDocument.ofKey k).write
  match ← fs.writePrivate f.draftPath document with
  | .error e => return .error (.keyStore (.cannotWrite f.draftPath e))
  | .ok () =>
    match ← fs.rename f.draftPath f.path with
    | .error e => return .error (.keyStore (.cannotReplace f.path e))
    | .ok () =>
      let _ ← fs.makePrivate f.path
      return .ok ()

/-- The key of contents; what they do not tell is made up. -/
def keyOf (a : Algorithm) (c : Contents) : m (Except AuthError SigningKey) := do
  let now ← s.now
  let id ← match c.keyId with
    | some id => pure id
    | none => do pure (Uuid.timed now (← s.draw Uuid.randomSize))
  return (SigningKey.ofParts id a (c.created.getD now) c.material).mapError
    fun e => corrupt (.unsuited e)

/-- The key of the file, if there is a file and its key is for the algorithm. -/
def load (a : Algorithm) : m (Except AuthError (Option SigningKey)) := do
  if !(← fs.isPresent f.path) then return .ok none
  match ← fs.readText f.path with
  | .error e => return .error (.configuration (.cannotRead f.path e))
  | .ok text =>
    match contents a text with
    | .error why => return .error (corrupt why)
    | .ok none => return .ok none
    | .ok (some c) =>
      match ← keyOf s a c with
      | .error e => return .error e
      | .ok k =>
        if c.keyId.isSome then return .ok (some k)
        match ← f.activate fs k with
        | .ok () => return .ok (some k)
        | .error e => return .error e

/-- Removes the file, if there is one. -/
def discard : m (Except AuthError Unit) := do
  match ← fs.remove f.path with
  | .ok () => return .ok ()
  | .error .notFound => return .ok ()
  | .error e => return .error (.keyStore (.cannotRemove f.path e))

/-- The store that keeps its key in the file. -/
def store : KeyStore m where
  kind := .plainFile
  file? := some f.path
  load := f.load s fs
  activate := f.activate fs
  discard := f.discard fs

end

end KeyFile

end TokenAuthority
