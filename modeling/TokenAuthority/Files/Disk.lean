import TokenAuthority.Files.Tree

/-!
# Disks

A tree of files as a disk keeps it. A place has the number of what stands there, and several
places may have the same: then they are names of one file. What has a number has an owner and
a group, and its permission bits say what they and all others may do with it.
-/

namespace TokenAuthority

/-! ### Rights -/

/-- Who may do what with something. -/
structure Rights where
  owner : Nat
  group : Nat
  mode : Nat
  deriving DecidableEq

/-- A user with groups. User 0 may do everything. -/
structure User where
  id : Nat
  group : Nat
  groups : List Nat

/-- What permission bits are about. To search a folder is to look names up in it. -/
inductive Access where
  | search
  | write
  | read

/-- The permission bit for all others. That of the group is three places above it, and that of
the owner six. -/
def Access.bit : Access → Nat
  | search => 0
  | write => 1
  | read => 2

/-- The permission bit of a folder from which only owners take names. -/
def stickyBit : Nat := 9

namespace User

/-- Whether a user may do something. An owner has the rights of the owner only, and a member of
the group has those of the group only. -/
def may (u : User) (x : Access) (r : Rights) : Bool :=
  u.id == 0 ||
    r.mode.testBit
      (x.bit + if r.owner = u.id then 6 else if r.group ∈ u.group :: u.groups then 3 else 0)

/-- Whether a user counts as the owner. -/
def owns (u : User) (r : Rights) : Bool :=
  u.id == 0 || r.owner == u.id

end User

/-! ### What has a number -/

/-- The permission bits of a node. A link has none of its own. -/
def Node.mode : Node → Nat
  | .folder mode => mode
  | .file mode _ => mode
  | .link _ => 0o777

/-- What has a number on a disk. -/
structure Inode where
  owner : Nat
  group : Nat
  node : Node

namespace Inode

/-- Who may do what with it. -/
def rights (n : Inode) : Rights := ⟨n.owner, n.group, n.node.mode⟩

/-- A file with another content. -/
def fill (n : Inode) (content : Bytes) : Inode :=
  match n.node with
  | .file mode _ => { n with node := .file mode content }
  | _ => n

/-- The same with other permission bits. -/
def restrict (n : Inode) (mode : Nat) : Inode :=
  match n.node with
  | .file _ content => { n with node := .file mode content }
  | .folder _ => { n with node := .folder mode }
  | .link _ => n

end Inode

/-! ### Disks -/

/-- Places with the numbers of what stands there. The root is not among them. -/
structure Disk where
  root : Rights
  names : List (Place × Nat)
  inode : Nat → Inode

namespace Disk

/-- The number of what stands at a place. -/
def number? (d : Disk) (p : Place) : Option Nat :=
  if p = [] then none else d.names.lookup p

/-- The files of a disk, without their owners. -/
def tree (d : Disk) : FileTree :=
  ⟨d.names.map fun e => (e.1, (d.inode e.2).node)⟩

/-- Who may do what with what stands at a place. -/
def rights? (d : Disk) (p : Place) : Option Rights :=
  if p = [] then some d.root else (d.number? p).map fun i => (d.inode i).rights

/-- Whether two places are names of one file. -/
def SameFile (d : Disk) (p q : Place) : Prop :=
  p = q ∨ d.number? p ≠ none ∧ d.number? p = d.number? q

instance (d : Disk) (p q : Place) : Decidable (d.SameFile p q) :=
  inferInstanceAs (Decidable (_ ∨ _))

/-! ### Changes -/

/-- A number that no place has. -/
def fresh (d : Disk) : Nat :=
  d.names.foldr (fun e n => max (e.2 + 1) n) 0

/-- The disk with something else under a number. -/
def set (d : Disk) (i : Nat) (n : Inode) : Disk :=
  { d with inode := fun j => if j = i then n else d.inode j }

/-- The disk with a number at a place. -/
def enter (d : Disk) (p : Place) (i : Nat) : Disk :=
  { d with names := (p, i) :: d.names.filter (·.1 != p) }

/-- The disk without a place and all that is below it. -/
def erase (d : Disk) (p : Place) : Disk :=
  { d with names := d.names.filter fun e => !p.isPrefixOf e.1 }

/-- The disk with something new at a place. -/
def make (d : Disk) (p : Place) (n : Inode) : Disk :=
  (d.set d.fresh n).enter p d.fresh

/-- The disk with another content in the file at a place. A file that is not there is made for
its owner alone. -/
def fill (d : Disk) (u : User) (p : Place) (content : Bytes) : Disk :=
  match d.number? p with
  | some i => d.set i ((d.inode i).fill content)
  | none => d.make p ⟨u.id, u.group, .file FileTree.privateMode content⟩

/-- The disk with what stands at a place moved to another. -/
def move (d : Disk) (p q : Place) : Disk :=
  match d.number? p with
  | some i => (d.erase p).enter q i
  | none => d

/-- The disk with other permission bits at a place. -/
def restrict (d : Disk) (p : Place) (mode : Nat) : Disk :=
  if p = [] then { d with root := { d.root with mode } }
  else
    match d.number? p with
    | some i => d.set i ((d.inode i).restrict mode)
    | none => d

end Disk

end TokenAuthority
