import TokenAuthority.Text.Hex

/-!
# Writing documents

Entries are written one a line. A text is written in the first of these forms that can
hold it as it is: between quotes, between apostrophes, on several lines between three
quotes, on several lines between three apostrophes; if none can, with escapes.
-/

namespace TokenAuthority.Toml

/-- Whether a character can only be written with an escape. -/
def needsEscape (c : Char) : Bool :=
  (c.toNat < 0x20 && c != '\t' && c != '\n') || c.toNat == 0x7F

/-- The length of the longest run of a character. -/
def longestRun (q : Char) (cs : List Char) : Nat :=
  (cs.foldl (fun (longest, run) c =>
    let run := if c = q then run + 1 else 0
    (max longest run, run)) (0, 0)).1

/-- A form of a text. -/
inductive Form where
  | basic
  | literal
  | basicLines
  | literalLines
  deriving DecidableEq, Repr

namespace Form

/-- Whether a form takes several lines. -/
def lines : Form → Bool
  | basic => false
  | literal => false
  | basicLines => true
  | literalLines => true

/-- Whether a form knows escapes. -/
def escapes : Form → Bool
  | basic => true
  | literal => false
  | basicLines => true
  | literalLines => false

/-- What stands on either side of a text. -/
def delimiter : Form → List Char
  | basic => ['"']
  | literal => ['\'']
  | basicLines => ['"', '"', '"']
  | literalLines => ['\'', '\'', '\'']

/-- The form that a text is written in. -/
def of (cs : List Char) : Form :=
  let controls := cs.any needsEscape
  let newline := cs.contains '\n'
  let backslash := cs.contains '\\'
  let quotes := longestRun '"' cs
  let apostrophes := longestRun '\'' cs
  if !controls && !backslash && quotes == 0 && !newline then basic
  else if !controls && apostrophes == 0 && !newline then literal
  else if !controls && !backslash && quotes ≤ 2 then basicLines
  else if !controls && apostrophes ≤ 2 then literalLines
  else if newline then basicLines
  else basic

end Form

/-- A character in a form with escapes; quotes are left to `escaped`. -/
def escapedChar (lines : Bool) (c : Char) : List Char :=
  if c = '\x08' then ['\\', 'b']
  else if c = '\t' then ['\\', 't']
  else if c = '\n' then if lines then ['\n'] else ['\\', 'n']
  else if c = '\x0c' then ['\\', 'f']
  else if c = '\r' then ['\\', 'r']
  else if c = '\\' then ['\\', '\\']
  else if needsEscape c then
    ['\\', 'u', '0', '0', Hex.digit (c.toNat / 16), (Hex.digit (c.toNat % 16)).toUpper]
  else [c]

/-- A text with escapes. Of a run of quotes every third is escaped on several lines, and
every one on a single line; `run` counts the plain quotes just written. -/
def escaped (lines : Bool) : Nat → List Char → List Char
  | _, [] => []
  | run, c :: rest =>
    if c = '"' then
      if run < (if lines then 2 else 0) then '"' :: escaped lines (run + 1) rest
      else '\\' :: '"' :: escaped lines 0 rest
    else escapedChar lines c ++ escaped lines 0 rest

/-- A text in its form. -/
def writeText (s : String) : List Char :=
  let cs := s.toList
  let form := Form.of cs
  let first := if form.lines && cs.contains '\n' then ['\n'] else []
  let inner := if form.escapes then escaped form.lines 0 cs else cs
  form.delimiter ++ first ++ inner ++ form.delimiter

/-- An entry with a key that needs no quotes. -/
def writeEntry (key : String) (value : List Char) : List Char :=
  key.toList ++ [' ', '=', ' '] ++ value ++ ['\n']

/-- An entry with a text. -/
def writeTextEntry (key value : String) : List Char :=
  writeEntry key (writeText value)

/-- An entry with a whole number. -/
def writeIntegerEntry (key : String) (value : Int) : List Char :=
  writeEntry key (toString value).toList

/-- A header with a key that needs no quotes. -/
def writeHeader (key : String) : List Char :=
  ['['] ++ key.toList ++ [']', '\n']

end TokenAuthority.Toml
