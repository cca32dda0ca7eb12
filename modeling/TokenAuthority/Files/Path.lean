import TokenAuthority.Text.Blank

/-!
# Paths

A path is a text of names with slashes between them. It begins with a slash if it starts
at the root. The names `.` and `..` stand for a folder itself and for the folder above.
-/

namespace TokenAuthority.Path

/-- Whether a path starts at the root. -/
def isAbsolute (path : String) : Bool :=
  path.toList.head? == some '/'

/-- The names of a path, in order. -/
def names (path : String) : List String :=
  ((Text.split '/' path.toList).filter (· != [])).map String.ofList

/-- Whether a path ends with a slash, so that it can only be one of a folder. -/
def isFolderForm (path : String) : Bool :=
  path.toList.getLast? == some '/'

/-- The path of names from the root. -/
def ofNames (names : List String) : String :=
  String.ofList ('/' :: ['/'].intercalate (names.map String.toList))

/-- A path, taken from a folder unless it starts at the root. -/
def under (folder path : String) : String :=
  if isAbsolute path then path
  else if folder = "" ∨ isFolderForm folder then folder ++ path
  else folder ++ "/" ++ path

/-- The path of the folder above, if there is a name to leave out. -/
def parent? (path : String) : Option String :=
  match (names path).filter (· != ".") with
  | [] => none
  | first :: rest =>
    let kept := (first :: rest).dropLast
    some (if isAbsolute path then ofNames kept else "/".intercalate kept)

end TokenAuthority.Path
