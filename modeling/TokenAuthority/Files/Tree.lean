import TokenAuthority.Files.Error
import TokenAuthority.Files.Path
import TokenAuthority.Text.Utf8

/-!
# A tree of files

Files, folders and links, each at a place: the names that lead to it from the root,
without any link on the way. A path leads to a place by a walk, which takes the names one
by one and goes on at the target of every link that it meets; a walk through too many
links is given up. Permission bits are kept here and bind nobody; on a disk they do.
-/

namespace TokenAuthority

/-- The names that lead from the root to a file. -/
abbrev Place := List String

/-- What stands at a place. The numbers are the permission bits. -/
inductive Node where
  | folder (mode : Nat)
  | file (mode : Nat) (content : Bytes)
  | link (target : String)
  deriving DecidableEq

/-- Places with what stands there. The root is a folder and not among them. -/
structure FileTree where
  nodes : List (Place × Node)

namespace FileTree

/-! ### Places -/

/-- The permission bits of a new folder. -/
def folderMode : Nat := 0o755

/-- The permission bits of a file for its owner alone. -/
def privateMode : Nat := 0o600

/-- What stands at a place. -/
def node? (t : FileTree) (p : Place) : Option Node :=
  if p = [] then some (.folder folderMode) else t.nodes.lookup p

/-- The tree with something else at a place. -/
def put (t : FileTree) (p : Place) (n : Node) : FileTree :=
  ⟨(p, n) :: t.nodes.filter (·.1 != p)⟩

/-- The tree without a place and all that is below it. -/
def erase (t : FileTree) (p : Place) : FileTree :=
  ⟨t.nodes.filter fun e => !p.isPrefixOf e.1⟩

/-! ### Walks -/

/-- Where a walk comes to a halt. -/
inductive Halt where
  | reached (p : Place) (n : Node)
  /-- There is nothing with the last name. -/
  | vacant (p : Place)
  /-- A link in a folder, with the names behind it. -/
  | atLink (folder : Place) (target : String) (rest : List String)

/-- How many octets a name may have. -/
def longestName : Nat := 255

/-- How many octets a path may have. -/
def longestPath : Nat := 4095

/-- Walks from a folder up to the first link; `follow` says whether a link at the end
counts as one. -/
def stride (t : FileTree) (follow : Bool) : Place → List String → Except FileError Halt
  | here, [] => .ok (.reached here ((t.node? here).getD (.folder folderMode)))
  | here, name :: rest =>
    if name = "." then t.stride follow here rest
    else if name = ".." then t.stride follow here.dropLast rest
    else if longestName < Utf8.size name then .error .nameTooLong
    else
      let p := here ++ [name]
      match t.node? p with
      | none => if rest = [] then .ok (.vacant p) else .error .notFound
      | some (.folder _) => t.stride follow p rest
      | some (.link target) =>
        if rest = [] ∧ !follow then .ok (.reached p (.link target))
        else .ok (.atLink here target rest)
      | some n => if rest = [] then .ok (.reached p n) else .error .notFolder

/-- Where a path ends. -/
inductive Spot where
  | taken (p : Place) (n : Node)
  /-- Nothing stands there, but a folder above. -/
  | free (p : Place)

/-- The place where a path ends. -/
def Spot.place : Spot → Place
  | .taken p _ => p
  | .free p => p

/-- Walks from a folder through fewer links than the first number. -/
def walk (t : FileTree) (follow : Bool) : Nat → Place → List String → Except FileError Spot
  | 0, _, _ => .error .tooManyLinks
  | links + 1, here, names => do
    match ← t.stride follow here names with
    | .reached p n => return .taken p n
    | .vacant p => return .free p
    | .atLink folder target rest =>
      t.walk follow links (if Path.isAbsolute target then [] else folder)
        (Path.names target ++ rest)

/-- How many links a walk may lead through. -/
def mostLinks : Nat := 40

/-- Refuses texts that are no paths. -/
def checkPath (path : String) : Except FileError Unit :=
  if path.toList.contains '\x00' then .error .endInPath
  else if path = "" then .error .notFound
  else if longestPath < Utf8.size path then .error .nameTooLong
  else .ok ()

/-- Where a path from a folder ends. A slash at the end asks for a folder, unless the
path is one of a folder to be made. -/
def spot (t : FileTree) (follow slash : Bool) (here : Place) (path : String) :
    Except FileError Spot := do
  checkPath path
  let names := Path.names path
  t.walk follow (mostLinks + 1) (if Path.isAbsolute path then [] else here)
    (if slash && Path.isFolderForm path then names ++ ["."] else names)

/-! ### Operations

Each takes the folder that paths without a root start from. -/

/-- What a path leads to, links followed. -/
def find (t : FileTree) (here : Place) (path : String) : Except FileError (Place × Node) := do
  match ← t.spot true true here path with
  | .taken p n => return (p, n)
  | .free _ => throw .notFound

/-- Whether a path leads to something. -/
def isPresent (t : FileTree) (here : Place) (path : String) : Bool :=
  (t.find here path).toOption.isSome

/-- Whether a path leads to a folder. -/
def isFolder (t : FileTree) (here : Place) (path : String) : Bool :=
  match t.find here path with
  | .ok (_, .folder _) => true
  | _ => false

/-- The content of a file. -/
def read (t : FileTree) (here : Place) (path : String) : Except FileError Bytes := do
  match ← t.find here path with
  | (_, .file _ content) => return content
  | _ => throw .isFolder

/-- Gives a file its content; a new file gets the permission bits. -/
def write (t : FileTree) (here : Place) (path : String) (mode : Nat) (content : Bytes) :
    Except FileError FileTree := do
  match ← t.spot true true here path with
  | .taken p (.file mode _) => return t.put p (.file mode content)
  | .taken _ _ => throw .isFolder
  | .free p => return t.put p (.file mode content)

/-- Moves a file or a link to the place of another. -/
def rename (t : FileTree) (here : Place) (source target : String) :
    Except FileError FileTree := do
  let .taken p n ← t.spot false true here source | throw .notFound
  if let .folder _ := n then throw .isFolder
  match ← t.spot false true here target with
  | .taken _ (.folder _) => throw .isFolder
  | .taken q _ => return if p = q then t else (t.erase p).put q n
  | .free q => return (t.erase p).put q n

/-- Gives a file or a folder its permission bits. -/
def restrict (t : FileTree) (here : Place) (path : String) (mode : Nat) :
    Except FileError FileTree := do
  match ← t.find here path with
  | (p, .file _ content) => return t.put p (.file mode content)
  | (p, .folder _) => return if p = [] then t else t.put p (.folder mode)
  | (_, .link _) => throw .tooManyLinks

/-- Removes a file or a link. -/
def remove (t : FileTree) (here : Place) (path : String) : Except FileError FileTree := do
  match ← t.spot false true here path with
  | .taken _ (.folder _) => throw .isFolder
  | .taken p _ => return t.erase p
  | .free _ => throw .notFound

/-- Makes a folder where nothing stands. -/
def makeFolder (t : FileTree) (here : Place) (path : String) : Except FileError FileTree := do
  match ← t.spot false false here path with
  | .taken _ _ => throw .alreadyExists
  | .free p => return t.put p (.folder folderMode)

/-- Makes a link where nothing stands. -/
def makeLink (t : FileTree) (here : Place) (path target : String) :
    Except FileError FileTree := do
  checkPath target
  match ← t.spot false true here path with
  | .taken _ _ => throw .alreadyExists
  | .free p => return t.put p (.link target)

/-- Removes a folder with all that is below it. -/
def removeFolder (t : FileTree) (here : Place) (path : String) : Except FileError FileTree := do
  match ← t.spot false true here path with
  | .taken p (.folder _) => return t.erase p
  | .taken _ _ => throw .notFolder
  | .free _ => throw .notFound

/-- The permission bits of what a path leads to. -/
def mode (t : FileTree) (here : Place) (path : String) : Except FileError Nat := do
  match ← t.find here path with
  | (_, .folder mode) => return mode
  | (_, .file mode _) => return mode
  | (_, .link _) => throw .tooManyLinks

/-- What is below a place, as paths from there in order; a folder has a slash at the end
of its path. -/
def below (t : FileTree) (p : Place) : List String :=
  let paths := t.nodes.filterMap fun (q, n) =>
    if p.isPrefixOf q && q != p then
      let path := "/".intercalate (q.drop p.length)
      match n with
      | .folder _ => some (path ++ "/")
      | _ => some path
    else none
  paths.mergeSort fun a b => !(b < a)

/-- The places that a stride comes by, up to the first link or what is no folder. -/
def passed (t : FileTree) : Place → List String → List Place
  | _, [] => []
  | here, name :: rest =>
    if name = "." then t.passed here rest
    else if name = ".." then t.passed here.dropLast rest
    else
      let p := here ++ [name]
      match t.node? p with
      | some (.folder _) => p :: t.passed p rest
      | _ => [p]

/-- The places that a walk comes by, links among them. -/
def way (t : FileTree) : Nat → Place → List String → List Place
  | 0, _, _ => []
  | links + 1, here, names =>
    t.passed here names ++
      match t.stride true here names with
      | .ok (.atLink folder target rest) =>
        t.way links (if Path.isAbsolute target then [] else folder) (Path.names target ++ rest)
      | _ => []

/-- The folders in which a stride looks names up. -/
def asked (t : FileTree) : Place → List String → List Place
  | _, [] => []
  | here, name :: rest =>
    here ::
      if name = "." then t.asked here rest
      else if name = ".." then t.asked here.dropLast rest
      else if longestName < Utf8.size name then []
      else
        match t.node? (here ++ [name]) with
        | some (.folder _) => t.asked (here ++ [name]) rest
        | _ => []

/-- The folders in which a walk looks names up, behind links too. -/
def searched (t : FileTree) (follow : Bool) : Nat → Place → List String → List Place
  | 0, _, _ => []
  | links + 1, here, names =>
    t.asked here names ++
      match t.stride follow here names with
      | .ok (.atLink folder target rest) =>
        t.searched follow links (if Path.isAbsolute target then [] else folder)
          (Path.names target ++ rest)
      | _ => []

/-- Whether a place has a path that is not too long. -/
def hasPath (p : Place) : Bool := Utf8.size (Path.ofNames p) ≤ longestPath

/-- The path of the place that a path leads to. It is found by asking about every place on
the way by its own path. -/
def resolve (t : FileTree) (here : Place) (path : String) : Except FileError String := do
  let (p, _) ← t.find here path
  let way := t.way (mostLinks + 1) (if Path.isAbsolute path then [] else here) (Path.names path)
  if (p :: way).all hasPath then return Path.ofNames p else throw .nameTooLong

end FileTree

end TokenAuthority
