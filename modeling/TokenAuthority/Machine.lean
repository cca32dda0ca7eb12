import TokenAuthority.Files.System
import TokenAuthority.Files.Tree
import TokenAuthority.Surroundings

/-!
# A machine

What the library asks of the world, as a state that can be seen: a tree of files, a clock
that stands still, and octets at random, of which every draw takes the next.
-/

namespace TokenAuthority

/-- The state of a machine. -/
structure Machine where
  files : FileTree
  /-- The folder that paths without a root start from. -/
  here : Place
  clock : Moment
  /-- The octets of each draw, of which there are as many as it asks for. -/
  random : Nat → Nat → Bytes
  /-- How many draws there were. -/
  drawn : Nat

namespace Machine

/-- What is done on a machine. -/
abbrev Act := StateM Machine

/-- Looks at the files. -/
def look {α : Type} (f : FileTree → Place → α) : Act α := do
  let s ← get
  return f s.files s.here

/-- Changes the files, or fails and leaves them. -/
def change (f : FileTree → Place → Except FileError FileTree) : Act (Except FileError Unit) := do
  let s ← get
  match f s.files s.here with
  | .ok files => set { s with files := files }; return .ok ()
  | .error e => return .error e

/-- The files of a machine. -/
def fileSystem : FileSystem Act where
  workingFolder := look fun _ here => .ok (Path.ofNames here)
  isPresent path := look fun t here => t.isPresent here path
  isFolder path := look fun t here => t.isFolder here path
  read path := look fun t here => t.read here path
  writePrivate path content := change fun t here => t.write here path FileTree.privateMode content
  rename source target := change fun t here => t.rename here source target
  makePrivate path := change fun t here => t.restrict here path FileTree.privateMode
  remove path := change fun t here => t.remove here path
  makeFolder path := change fun t here => t.makeFolder here path
  resolve path := look fun t here => t.resolve here path

/-- The clock of a machine, and its octets at random. -/
def surroundings : Surroundings Act where
  now := do return (← get).clock
  draw n := do
    let s ← get
    set { s with drawn := s.drawn + 1 }
    return s.random s.drawn n

end Machine

end TokenAuthority
