/-!
# What goes wrong with files

The causes, and the texts that the system gives them.
-/

namespace TokenAuthority

/-- An error of an operation on files. -/
inductive FileError where
  | notFound
  | alreadyExists
  | notFolder
  | isFolder
  | nameTooLong
  | tooManyLinks
  /-- The permission bits do not allow it. -/
  | denied
  /-- It is for an owner only. -/
  | notPermitted
  /-- A path holds the character that ends a path. -/
  | endInPath
  /-- The content of a file is not the form of a text. -/
  | notText
  /-- An error that the system states in its own words. -/
  | stated (text : String)
  deriving DecidableEq, Repr

/-- The error that the system gives a number. -/
def FileError.ofNumber? : Nat → Option FileError
  | 1 => some notPermitted
  | 2 => some notFound
  | 13 => some denied
  | 17 => some alreadyExists
  | 20 => some notFolder
  | 21 => some isFolder
  | 36 => some nameTooLong
  | 40 => some tooManyLinks
  | _ => none

/-- The text of an error. -/
def FileError.message : FileError → String
  | notFound => "No such file or directory (os error 2)"
  | alreadyExists => "File exists (os error 17)"
  | notFolder => "Not a directory (os error 20)"
  | isFolder => "Is a directory (os error 21)"
  | nameTooLong => "File name too long (os error 36)"
  | tooManyLinks => "Too many levels of symbolic links (os error 40)"
  | denied => "Permission denied (os error 13)"
  | notPermitted => "Operation not permitted (os error 1)"
  | endInPath => "file name contained an unexpected NUL byte"
  | notText => "stream did not contain valid UTF-8"
  | stated text => text

end TokenAuthority
