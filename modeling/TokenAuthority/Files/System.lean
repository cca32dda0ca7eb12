import TokenAuthority.Bytes
import TokenAuthority.Files.Error
import TokenAuthority.Files.Path
import TokenAuthority.Text.Utf8

/-!
# Files

What the library needs of a file system, in any monad, and two operations made of it:
making a folder together with those above it, and finding the true path of a folder that
is made if need be.
-/

namespace TokenAuthority

/-- The operations of a file system. Except where it is said, links are followed. -/
structure FileSystem (m : Type → Type) where
  /-- The folder that paths without a root start from. -/
  workingFolder : m (Except FileError String)
  isPresent : String → m Bool
  isFolder : String → m Bool
  read : String → m (Except FileError Bytes)
  /-- Gives a file its content; a new file is for its owner alone. -/
  writePrivate : String → Bytes → m (Except FileError Unit)
  /-- Moves a file to the place of another; links themselves are moved and replaced. -/
  rename : String → String → m (Except FileError Unit)
  /-- Makes a file one for its owner alone. -/
  makePrivate : String → m (Except FileError Unit)
  /-- Removes a file, or a link itself. -/
  remove : String → m (Except FileError Unit)
  makeFolder : String → m (Except FileError Unit)
  /-- The path without links, `.` and `..`. -/
  resolve : String → m (Except FileError String)

namespace FileSystem

/-- The same file system, in another monad. -/
def lift {m n : Type → Type} (f : {α : Type} → m α → n α) (fs : FileSystem m) :
    FileSystem n where
  workingFolder := f fs.workingFolder
  isPresent path := f (fs.isPresent path)
  isFolder path := f (fs.isFolder path)
  read path := f (fs.read path)
  writePrivate path content := f (fs.writePrivate path content)
  rename source target := f (fs.rename source target)
  makePrivate path := f (fs.makePrivate path)
  remove path := f (fs.remove path)
  makeFolder path := f (fs.makeFolder path)
  resolve path := f (fs.resolve path)

variable {m : Type → Type} [Monad m] (fs : FileSystem m)

/-- Makes a folder where one is missing; that there is one already is no error. -/
def ensureFolder (path : String) : m (Except FileError Unit) := do
  match ← fs.makeFolder path with
  | .ok () => return .ok ()
  | .error e => if ← fs.isFolder path then return .ok () else return .error e

/-- Makes a folder together with those above it; `fuel` bounds the names of the path. -/
def ensureFoldersWithin : Nat → String → m (Except FileError Unit)
  | 0, path => fs.ensureFolder path
  | fuel + 1, path => do
    if path = "" then return .ok ()
    match ← fs.makeFolder path with
    | .ok () => return .ok ()
    | .error .notFound =>
      match Path.parent? path with
      | none => return .error .notFound
      | some above =>
        match ← ensureFoldersWithin fuel above with
        | .ok () => fs.ensureFolder path
        | .error e => return .error e
    | .error e => if ← fs.isFolder path then return .ok () else return .error e

/-- Makes a folder together with those above it. -/
def ensureFolders (path : String) : m (Except FileError Unit) :=
  fs.ensureFoldersWithin ((Path.names path).length + 1) path

/-- The text of a file. -/
def readText (path : String) : m (Except FileError String) := do
  match ← fs.read path with
  | .error e => return .error e
  | .ok bs =>
    match Utf8.decode? bs with
    | some s => return .ok s
    | none => return .error .notText

end FileSystem

end TokenAuthority
