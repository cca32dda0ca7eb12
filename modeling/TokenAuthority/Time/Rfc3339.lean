import TokenAuthority.Text.Blank
import TokenAuthority.Time.Calendar

/-!
# Instants as text

Writing gives date and time with the fraction of a second in as few groups of three
digits as it needs. Reading is laxer: blanks may stand between the parts, leading zeros
may be missing, and the instant may be given for any place on earth.
-/

namespace TokenAuthority.Rfc3339

/-! ### Writing -/

/-- The digits of a number, with zeros in front up to a width. -/
def padded (width n : Nat) : List Char :=
  let digits := (toString n).toList
  List.replicate (width - digits.length) '0' ++ digits

/-- A year: four digits, or a sign and at least four digits where four are not enough. -/
def year (y : Int) : List Char :=
  if 0 ≤ y ∧ y ≤ 9999 then padded 4 y.toNat
  else (if y < 0 then '-' else '+') :: padded 4 y.natAbs

/-- The fraction of a second: nothing, or a point and three, six or nine digits. -/
def fraction (nanos : Nat) : List Char :=
  if nanos = 0 then []
  else if nanos % 1000000 = 0 then '.' :: padded 3 (nanos / 1000000)
  else if nanos % 1000 = 0 then '.' :: padded 6 (nanos / 1000)
  else '.' :: padded 9 nanos

/-- Date and time of an instant. A leap second is the second 60 of its minute. -/
def dateTime (t : Instant) : List Char :=
  let date := Date.ofDays (t.seconds / 86400)
  let second := (t.seconds % 86400).toNat
  let leap := t.nanos / 1000000000
  year date.year ++ '-' :: padded 2 date.month ++ '-' :: padded 2 date.day ++
    'T' :: padded 2 (second / 3600) ++ ':' :: padded 2 (second / 60 % 60) ++
    ':' :: padded 2 (second % 60 + leap) ++ fraction (t.nanos % 1000000000)

/-- An instant with its distance from Greenwich, which is none. -/
def write (t : Instant) : String :=
  String.ofList (dateTime t ++ "+00:00".toList)

/-- An instant with the letter for Greenwich. -/
def writeShort (t : Instant) : String :=
  String.ofList (dateTime t ++ ['Z'])

/-! ### Reading -/

/-- The number that digits stand for. -/
def value (digits : List Char) : Nat :=
  digits.foldl (fun n c => n * 10 + (c.toNat - 48)) 0

/-- A number of one to `width` digits, and what follows. -/
def number? (width : Nat) (cs : List Char) : Option (Nat × List Char) :=
  let digits := (cs.take width).takeWhile Char.isDigit
  if digits = [] then none else some (value digits, cs.drop digits.length)

/-- A number of one or two digits within bounds, behind any blanks. -/
def field? (low high : Nat) (cs : List Char) : Option (Nat × List Char) := do
  let (n, rest) ← number? 2 (Text.trimStart cs)
  if low ≤ n ∧ n ≤ high then some (n, rest) else none

/-- What follows a mark, which may stand behind blanks. -/
def mark? (c : Char) (cs : List Char) : Option (List Char) :=
  match Text.trimStart cs with
  | d :: rest => if d = c then some rest else none
  | [] => none

/-- A year: up to four digits, or any number of digits behind a sign. -/
def year? (cs : List Char) : Option (Int × List Char) :=
  match Text.trimStart cs with
  | '-' :: rest => do let (n, rest) ← number? rest.length rest; return (-n, rest)
  | '+' :: rest => do let (n, rest) ← number? rest.length rest; return (n, rest)
  | rest => do let (n, rest) ← number? 4 rest; return (n, rest)

/-- The nanoseconds behind a point; digits after the ninth do not count. -/
def fraction? (cs : List Char) : Option (Nat × List Char) :=
  match cs with
  | '.' :: rest => do
    let (n, behind) ← number? 9 rest
    let count := rest.length - behind.length
    return (n * Nat.pow 10 (9 - count), behind.dropWhile Char.isDigit)
  | _ => some (0, cs)

/-- Two digits, the first of them up to a bound. -/
def twoDigits? (high : Char) (cs : List Char) : Option (Nat × List Char) :=
  match cs with
  | a :: b :: rest =>
    if a.isDigit ∧ a ≤ high ∧ b.isDigit then some (value [a, b], rest) else none
  | _ => none

/-- Hours and minutes behind a sign, in seconds, and what follows. -/
def hoursMinutes? (cs : List Char) : Option (Nat × List Char) := do
  let (hours, rest) ← twoDigits? '9' cs
  let (minutes, rest) ← twoDigits? '5' (rest.dropWhile fun c => c == ':' || Text.isBlank c)
  return (hours * 3600 + minutes * 60, rest)

/-- The distance from Greenwich in seconds, and what follows. -/
def offset? (cs : List Char) : Option (Int × List Char) :=
  match cs with
  | 'Z' :: rest => some (0, rest)
  | 'z' :: rest => some (0, rest)
  | '+' :: rest => do let (n, rest) ← hoursMinutes? rest; return (n, rest)
  | '-' :: rest => do let (n, rest) ← hoursMinutes? rest; return (-n, rest)
  | '\u2212' :: rest => do let (n, rest) ← hoursMinutes? rest; return (-n, rest)
  | a :: b :: c :: rest =>
    if Text.eqIgnoringCase [a, b, c] ['u', 't', 'c'] then some (0, rest) else none
  | _ => none

/-- Whether a year can be that of an instant. -/
def isYear (y : Int) : Bool := -262143 ≤ y && y ≤ 262142

/-- The instant that a text stands for. -/
def read? (s : String) : Option Instant := do
  let (year, cs) ← year? s.toList
  let cs ← mark? '-' cs
  let (month, cs) ← field? 1 12 cs
  let cs ← mark? '-' cs
  let (day, cs) ← field? 1 31 cs
  let cs ← match cs with
    | c :: rest => if c = 'T' ∨ c = 't' ∨ c = ' ' then some rest else none
    | [] => none
  let (hour, cs) ← field? 0 23 cs
  let cs ← mark? ':' cs
  let (minute, cs) ← field? 0 59 cs
  let cs ← mark? ':' cs
  let (second, cs) ← field? 0 60 cs
  let (nanos, cs) ← fraction? cs
  let (offset, cs) ← offset? (Text.trimStart cs)
  let date : Date := ⟨year, month, day⟩
  if Text.trimStart cs = [] ∧ isYear year ∧ date.isValid ∧ offset.natAbs < 86400 then
    let (second, nanos) := if second = 60 then (59, nanos + 1000000000) else (second, nanos)
    Instant.of? (date.toDays * 86400 + (hour * 3600 + minute * 60 + second : Nat) - offset) nanos
  else none

end TokenAuthority.Rfc3339
