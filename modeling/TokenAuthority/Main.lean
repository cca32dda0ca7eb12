import Std.Time.DateTime.Timestamp
import TokenAuthority.CommandLine.Run

/-!
# The program

The clock, the source of random octets, the files and the environment of the system, and
the printing of a report. All decisions are made elsewhere.
-/

namespace TokenAuthority.Main

/-! ### Files of the system -/

/-- An error of the system, known by its number. Some operations give the number with a
sign, in the octets of a number without one. -/
def ofNumber (n : Nat) (text : String) : FileError :=
  let n := if n < 1 <<< 31 then n else 1 <<< 32 - n
  (FileError.ofNumber? n).getD (.stated (text ++ " (os error " ++ toString n ++ ")"))

/-- An error of the system. -/
def ofSystem : IO.Error → FileError
  | .alreadyExists _ code text => ofNumber code.toNat text
  | .noFileOrDirectory _ code text => ofNumber code.toNat text
  | .inappropriateType _ code text => ofNumber code.toNat text
  | .invalidArgument _ code text => ofNumber code.toNat text
  | .permissionDenied _ code text => ofNumber code.toNat text
  | .noSuchThing _ code text => ofNumber code.toNat text
  | .resourceExhausted _ code text => ofNumber code.toNat text
  | .unsatisfiedConstraints code text => ofNumber code.toNat text
  | .illegalOperation code text => ofNumber code.toNat text
  | .otherError code text => ofNumber code.toNat text
  | e => .stated (toString e)

/-- The answer of an operation, with an error of the system as one of the library. -/
def tried {α : Type} (x : IO α) : IO (Except FileError α) := do
  try return .ok (← x) catch e => return .error (ofSystem e)

/-- Whether an operation succeeds. -/
def succeeds {α : Type} (x : IO α) : IO Bool := do
  return (← tried x).toOption.isSome

/-- Makes a file one for its owner alone. -/
def makePrivate (path : String) : IO Unit :=
  IO.setAccessRights path { user := { read := true, write := true } }

/-- Gives a file its content; a new file is made private before it has any. -/
def writePrivate (path : String) (content : Bytes) : IO Unit := do
  let isNew := !(← succeeds (IO.FS.realPath path))
  let handle ← IO.FS.Handle.mk path .write
  if isNew then makePrivate path
  handle.write ⟨content.toArray⟩

/-- The files of the system. -/
def fileSystem : FileSystem IO where
  workingFolder := tried do return (← IO.currentDir).toString
  isPresent path := succeeds (IO.FS.realPath path)
  isFolder path := succeeds (IO.FS.realPath (path ++ "/."))
  read path := tried do return (← IO.FS.readBinFile path).toList
  writePrivate path content := tried (writePrivate path content)
  rename source target := tried (IO.FS.rename source target)
  makePrivate path := tried (makePrivate path)
  remove path := tried (IO.FS.removeFile path)
  makeFolder path := tried (IO.FS.createDir path)
  resolve path := tried do return (← IO.FS.realPath path).toString

/-! ### Surroundings -/

/-- The clock and the random octets of the system. -/
def surroundings : Surroundings IO where
  now := do
    let t ← Std.Time.Timestamp.now
    return (Moment.of? t.val.second.val t.val.nano.val.toNat).getD .epoch
  draw n := return (← IO.getRandomBytes (USize.ofNat n)).toList

/-- The environment that the program was started with. -/
def environment : IO Environment := do
  match ← tried (IO.FS.readBinFile "/proc/self/environ") with
  | .ok block => return .ofBlock block.toList
  | .error _ => return []

end TokenAuthority.Main

open TokenAuthority in
/-- Runs the program with the words of the command line, and prints the report. -/
def main (args : List String) : IO UInt32 := do
  let report ← runProgram Main.surroundings Main.fileSystem (← Main.environment) args
  for line in report.lines do
    IO.println line
  if let some line := report.errorLine? then IO.eprintln line
  return UInt32.ofNat report.exitCode
