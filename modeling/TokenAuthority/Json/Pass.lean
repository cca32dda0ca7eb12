import TokenAuthority.Json.Number
import TokenAuthority.Json.Quoted

/-!
# Passing over a value

A value that nobody asked for is passed over: its form is checked, its numbers are not
worked out, and it may be nested as deeply as it likes, because the open lists and
objects are kept on a stack.
-/

namespace TokenAuthority.Json

/-- Whether an octet is blank. -/
def isSpace (b : UInt8) : Bool :=
  b == 0x20 || b == 0x0A || b == 0x09 || b == 0x0D

/-- What follows the blanks in front. -/
def skipSpace (bs : Bytes) : Bytes := bs.dropWhile isSpace

/-- What follows the rest of a word. -/
def word : Bytes → Bytes → Except Error Bytes
  | [], bs => .ok bs
  | _ :: _, [] => .error .endInValue
  | c :: cs, b :: bs => if b = c then word cs bs else .error .noWord

/-- The letters of `null` behind the first. -/
def nullTail : Bytes := [0x75, 0x6C, 0x6C]

/-- The letters of `true` behind the first. -/
def trueTail : Bytes := [0x72, 0x75, 0x65]

/-- The letters of `false` behind the first. -/
def falseTail : Bytes := [0x61, 0x6C, 0x73, 0x65]

/-- An open list or object. -/
inductive Frame where
  | list
  | object
  deriving DecidableEq, Repr

/-- The octet that closes a frame. -/
def Frame.closing : Frame → UInt8
  | list => 0x5D
  | object => 0x7D

/-- The error of a text that ends inside a frame. -/
def Frame.endError : Frame → Error
  | list => .endInList
  | object => .endInObject

/-- The error of a frame's element that neither a comma nor the end follows. -/
def Frame.commaError : Frame → Error
  | list => .noCommaInList
  | object => .noCommaInObject

/-- What follows the colon behind a key. -/
def colon (bs : Bytes) : Except Error Bytes :=
  match skipSpace bs with
  | [] => .error .endInObject
  | b :: rest => if b = 0x3A then .ok rest else .error .noColon

/-- The place where the value of a frame's next element starts: behind a key and its
colon, in an object. -/
def Frame.element (f : Frame) (bs : Bytes) : Except Error Bytes :=
  match f with
  | list => .ok bs
  | object =>
    match skipSpace bs with
    | [] => .error .endInObject
    | b :: rest => if b = quote then do colon (← passText rest) else .error .keyNotText

mutual

/-- What follows a value that stands inside the given open frames, and all of these. -/
def passValue : Nat → List Frame → Bytes → Except Error Bytes
  | 0, _, _ => .error .endInValue
  | fuel + 1, frames, bs =>
    match skipSpace bs with
    | [] => .error .endInValue
    | b :: rest =>
      if b = 0x6E then do passFrames fuel frames (← word nullTail rest)
      else if b = 0x74 then do passFrames fuel frames (← word trueTail rest)
      else if b = 0x66 then do passFrames fuel frames (← word falseTail rest)
      else if b = 0x2D then do passFrames fuel frames (← passNumber rest)
      else if isDigit b then do passFrames fuel frames (← passNumber (b :: rest))
      else if b = quote then do passFrames fuel frames (← passText rest)
      else if b = 0x5B then passOpened fuel .list frames rest
      else if b = 0x7B then passOpened fuel .object frames rest
      else .error .noValue

/-- What follows a frame that was just opened. -/
def passOpened : Nat → Frame → List Frame → Bytes → Except Error Bytes
  | 0, _, _, _ => .error .endInValue
  | fuel + 1, f, frames, bs =>
    match skipSpace bs with
    | [] => .error f.endError
    | b :: rest =>
      if b = f.closing then passFrames fuel frames rest
      else do passValue fuel (f :: frames) (← f.element (b :: rest))

/-- What follows the given open frames, behind an element of the innermost. -/
def passFrames : Nat → List Frame → Bytes → Except Error Bytes
  | _, [], bs => .ok bs
  | 0, _ :: _, _ => .error .endInValue
  | fuel + 1, f :: frames, bs =>
    match skipSpace bs with
    | [] => .error f.endError
    | b :: rest =>
      if b = 0x2C then do passValue fuel (f :: frames) (← f.element rest)
      else if b = f.closing then passFrames fuel frames rest
      else .error f.commaError

end

/-- What follows a value. -/
def pass (bs : Bytes) : Except Error Bytes :=
  passValue (2 * bs.length + 1) [] bs

end TokenAuthority.Json
