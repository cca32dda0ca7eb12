import TokenAuthority.Files.Disk
import TokenAuthority.Files.System
import TokenAuthority.Surroundings

/-!
# Hosts

What a process meets on a system with several users: a disk whose permission bits bind it, and
on which writing may fail halfway. Its clock and its octets at random are those of a machine.
-/

namespace TokenAuthority

open FileTree (Spot checkPath)

/-- The state of a host, as a process meets it. -/
structure Host where
  disk : Disk
  /-- The user that the process runs as. -/
  user : User
  /-- The folder that paths without a root start from. -/
  here : Place
  clock : Moment
  /-- The octets of each draw, of which there are as many as it asks for. -/
  random : Nat → Nat → Bytes
  /-- How many draws there were. -/
  drawn : Nat
  /-- After how many octets writing fails, if it does, and why. -/
  fault? : Option (Nat × FileError)

namespace Host

/-! ### Rights -/

/-- Whether the process may do something with what stands at a place. -/
def may (h : Host) (x : Access) (p : Place) : Bool :=
  (h.disk.rights? p).any (h.user.may x)

/-- Whether the process counts as the owner of what stands at a place. -/
def owns (h : Host) (p : Place) : Bool :=
  (h.disk.rights? p).any h.user.owns

/-- Whether the name of a place is one that only others can take from its folder: the owners of
the folder, and those of what stands there. -/
def isKept (h : Host) (p : Place) : Bool :=
  (h.disk.rights? p.dropLast).any (·.mode.testBit stickyBit) && !h.owns p.dropLast &&
    (h.disk.rights? p).isSome && !h.owns p

/-- Refuses to change what a name in a folder stands for. -/
def checkName (h : Host) (p : Place) : Except FileError Unit :=
  if !h.may .write p.dropLast then .error .denied
  else if h.isKept p then .error .notPermitted
  else .ok ()

/-- Refuses to move, replace or remove a folder. -/
def checkPlain : Spot → Except FileError Unit
  | .taken _ (.folder _) => .error .isFolder
  | _ => .ok ()

/-- Whether the process may search all folders in which the names of a path are looked up. -/
def maySearch (h : Host) (follow : Bool) (path : String) : Bool :=
  (h.disk.tree.searched follow (FileTree.mostLinks + 1)
    (if Path.isAbsolute path then [] else h.here) (Path.names path)).all (h.may .search)

/-! ### Operations -/

/-- Where a path ends. -/
def spot (h : Host) (follow slash : Bool) (path : String) : Except FileError Spot := do
  checkPath path
  if h.maySearch follow path then h.disk.tree.spot follow slash h.here path else throw .denied

/-- What a path leads to, links followed. -/
def find (h : Host) (path : String) : Except FileError (Place × Node) := do
  match ← h.spot true true path with
  | .taken p n => return (p, n)
  | .free _ => throw .notFound

/-- Whether a path leads to something. It does not for a process that may not go there. -/
def isPresent (h : Host) (path : String) : Bool :=
  (h.find path).toOption.isSome

/-- Whether a path leads to a folder. -/
def isFolder (h : Host) (path : String) : Bool :=
  match h.find path with
  | .ok (_, .folder _) => true
  | _ => false

/-- The content of a file. -/
def read (h : Host) (path : String) : Except FileError Bytes := do
  let (p, n) ← h.find path
  if h.may .read p then
    match n with
    | .file _ content => return content
    | _ => throw .isFolder
  else throw .denied

/-- The place of the file that is opened to be written. -/
def opened (h : Host) (path : String) : Except FileError Place := do
  match ← h.spot true true path with
  | .taken p (.file _ _) => if h.may .write p then return p else throw .denied
  | .taken _ _ => throw .isFolder
  | .free p => if h.may .write p.dropLast then return p else throw .denied

/-- The host with a content in the file at a place. -/
def filled (h : Host) (p : Place) (content : Bytes) : Host :=
  { h with disk := h.disk.fill h.user p content }

/-- Gives a file its content. What was there is lost as soon as the file is opened. -/
def write (h : Host) (path : String) (content : Bytes) : Except FileError Unit × Host :=
  match h.opened path with
  | .error e => (.error e, h)
  | .ok p =>
    match h.fault? with
    | none => (.ok (), h.filled p content)
    | some (n, e) => (.error e, h.filled p (content.take n))

/-- Moves a file or a link to the place of another. Nothing is done if they are one. -/
def rename (h : Host) (source target : String) : Except FileError Disk := do
  let .taken p n ← h.spot false true source | throw .notFound
  checkPlain (.taken p n)
  let x ← h.spot false true target
  if h.disk.SameFile p x.place then return h.disk
  h.checkName p
  h.checkName x.place
  checkPlain x
  return h.disk.move p x.place

/-- Gives a file or a folder its permission bits. -/
def restrict (h : Host) (path : String) (mode : Nat) : Except FileError Disk := do
  let (p, _) ← h.find path
  if h.owns p then return h.disk.restrict p mode else throw .notPermitted

/-- Removes a file or a link. -/
def remove (h : Host) (path : String) : Except FileError Disk := do
  let .taken p n ← h.spot false true path | throw .notFound
  h.checkName p
  checkPlain (.taken p n)
  return h.disk.erase p

/-- Makes a folder where nothing stands. -/
def makeFolder (h : Host) (path : String) : Except FileError Disk := do
  let .free p ← h.spot false false path | throw .alreadyExists
  h.checkName p
  return h.disk.make p ⟨h.user.id, h.user.group, .folder FileTree.folderMode⟩

/-- The path of the place that a path leads to. -/
def resolve (h : Host) (path : String) : Except FileError String := do
  let _ ← h.find path
  h.disk.tree.resolve h.here path

/-! ### What a process asks of its host -/

/-- What is done on a host. -/
abbrev Act := StateM Host

/-- Looks at the host. -/
def look {α : Type} (f : Host → α) : Act α := do
  return f (← get)

/-- Changes the disk, or fails and leaves it. -/
def change (f : Host → Except FileError Disk) : Act (Except FileError Unit) := do
  let h ← get
  match f h with
  | .ok disk => set { h with disk := disk }; return .ok ()
  | .error e => return .error e

/-- The files of a host. -/
def fileSystem : FileSystem Act where
  workingFolder := look fun h => .ok (Path.ofNames h.here)
  isPresent path := look (·.isPresent path)
  isFolder path := look (·.isFolder path)
  read path := look (·.read path)
  writePrivate path content := modifyGet (·.write path content)
  rename source target := change (·.rename source target)
  makePrivate path := change (·.restrict path FileTree.privateMode)
  remove path := change (·.remove path)
  makeFolder path := change (·.makeFolder path)
  resolve path := look (·.resolve path)

/-- The clock of a host, and its octets at random. -/
def surroundings : Surroundings Act where
  now := look (·.clock)
  draw n := do
    let h ← get
    set { h with drawn := h.drawn + 1 }
    return h.random h.drawn n

end Host

end TokenAuthority
