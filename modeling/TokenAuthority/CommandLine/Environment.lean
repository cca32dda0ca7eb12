import TokenAuthority.Files.System
import TokenAuthority.Text.Blank

/-!
# The environment

Variables with their values. Those that a program is started with can be completed by a
file of variables, one a line, in the working folder or in a folder above it. A value may
stand in quotes, on several lines then, and mention other variables. The first line that
is malformed ends the reading, and variables that have a value keep it.
-/

namespace TokenAuthority

/-- Variables with their values. -/
abbrev Environment := List (String × String)

namespace Environment

/-- The environment with a value for a variable that has none. -/
def complete (e : Environment) (name value : String) : Environment :=
  if (e.lookup name).isSome then e else e ++ [(name, value)]

/-! ### Lines -/

/-- What a line is in the midst of. -/
inductive Amid where
  | word
  | blank
  | escape
  | quotes
  | quotesEscape
  | apostrophes
  | apostrophesEscape
  deriving DecidableEq

/-- What a line is in the midst of after a character. -/
def Amid.next (a : Amid) (c : Char) : Amid :=
  let opened : Amid :=
    if c = '\\' then .escape
    else if c = '"' then .quotes
    else if c = '\'' then .apostrophes
    else .word
  match a with
  | .word => if Text.isBlank c ∧ c ≠ '\n' ∧ c ≠ '\r' then .blank else opened
  | .blank => opened
  | .escape => .word
  | .quotes => if c = '\\' then .quotesEscape else if c = '"' then .word else .quotes
  | .quotesEscape => .quotes
  | .apostrophes =>
    if c = '\\' then .apostrophesEscape else if c = '\'' then .word else .apostrophes
  | .apostrophesEscape => .apostrophes

/-- The characters up to a comment, whether there is a comment, and what the line is in
the midst of at its end. -/
def scan : Amid → List Char → List Char × Bool × Amid
  | a, [] => ([], false, a)
  | a, c :: rest =>
    if a = .blank ∧ c = '#' then ([], true, a)
    else
      let (kept, comment, a) := scan (a.next c) rest
      (c :: kept, comment, a)

/-- A line without its end. -/
def chomp (cs : List Char) : List Char :=
  match cs.reverse with
  | '\n' :: '\r' :: rest => rest.reverse
  | '\n' :: rest => rest.reverse
  | _ => cs

/-- The lines, those that go on behind an end of line put together; the last is missing
if it does not end. `begun` is what was read of a line so far. -/
def joinLines : Amid → List Char → List (List Char) → List (Option (List Char))
  | a, _, [] => if a = .word then [] else [none]
  | a, begun, line :: rest =>
    let (kept, comment, after) := scan a line
    if (Text.trimStart (begun ++ line)).head? = some '#' then
      some [] :: joinLines .word [] rest
    else if comment then some (begun ++ kept) :: joinLines .word [] rest
    else if after = .word then some (chomp (begun ++ line)) :: joinLines .word [] rest
    else joinLines after (begun ++ line) rest

/-! ### Values -/

/-- What a value is in the midst of. The truth values say whether it stands in quotes. -/
inductive Inside where
  | text (quoted : Bool)
  | escape (quoted : Bool)
  | apostrophes
  /-- A mention of a variable, with the name as far as it was read. -/
  | mention (quoted : Bool) (name : List Char)
  /-- A mention in braces. -/
  | braces (quoted : Bool) (name : List Char)
  /-- Behind the value, where only a comment may stand. -/
  | behind

/-- The value of a variable, or nothing. -/
def valueOf (e : Environment) (name : List Char) : List Char :=
  ((e.lookup (String.ofList name)).getD "").toList

/-- Whether a character belongs to the name of a variable that is mentioned: a letter or
a digit. All characters that are not ASCII count as letters. -/
def isMentioned (c : Char) : Bool := c.isAlphanum || 0x80 ≤ c.toNat

/-- A value, of which characters remain to be read. -/
def value (e : Environment) : Inside → List Char → Option (List Char)
  | .behind, [] => some []
  | .behind, c :: rest =>
    if c = ' ' ∨ c = '\t' then value e .behind rest else if c = '#' then some [] else none
  | .text quoted, [] => if quoted then none else some []
  | .text quoted, c :: rest =>
    if c = '$' then value e (.mention quoted []) rest
    else if c = '"' then value e (.text (!quoted)) rest
    else if c = '\\' then value e (.escape quoted) rest
    else if quoted then (c :: ·) <$> value e (.text quoted) rest
    else if c = '\'' then value e .apostrophes rest
    else if c = ' ' ∨ c = '\t' then value e .behind rest
    else (c :: ·) <$> value e (.text quoted) rest
  | .escape quoted, [] => if quoted then none else some []
  | .escape quoted, c :: rest =>
    if c = 'n' then ('\n' :: ·) <$> value e (.text quoted) rest
    else if c = '\\' ∨ c = '\'' ∨ c = '"' ∨ c = '$' ∨ c = ' ' then
      (c :: ·) <$> value e (.text quoted) rest
    else none
  | .apostrophes, [] => none
  | .apostrophes, c :: rest =>
    if c = '\'' then value e (.text false) rest else (c :: ·) <$> value e .apostrophes rest
  | .mention quoted name, [] => if quoted then none else some (valueOf e name)
  | .mention quoted name, c :: rest =>
    if isMentioned c then value e (.mention quoted (name ++ [c])) rest
    else if c = '\x7b' ∧ name = [] then value e (.braces quoted []) rest
    else if c = '$' then (valueOf e name ++ ·) <$> value e (.mention quoted []) rest
    else (valueOf e name ++ c :: ·) <$> value e (.text quoted) rest
  | .braces _ _, [] => none
  | .braces quoted name, c :: rest =>
    if c = '\x7d' then (valueOf e name ++ ·) <$> value e (.text quoted) rest
    else value e (.braces quoted (name ++ [c])) rest

/-! ### Entries -/

/-- The name that a line begins with, and what follows it. -/
def name? (cs : List Char) : Option (List Char × List Char) :=
  match cs with
  | c :: _ =>
    if c.isAlpha ∨ c = '_' then
      let isName := fun c : Char => c.isAlphanum || c == '_' || c == '.'
      some (cs.takeWhile isName, cs.dropWhile isName)
    else none
  | [] => none

/-- What follows the sign between name and value, behind blanks. -/
def equal? (cs : List Char) : Option (List Char) :=
  match Text.trimStart cs with
  | '=' :: rest => some rest
  | _ => none

/-- The name of a line and what follows the sign behind it; the name may stand behind the
word `export`. -/
def head? (cs : List Char) : Option (List Char × List Char) := do
  let (name, rest) ← name? cs
  match equal? rest with
  | some rest => return (name, rest)
  | none =>
    if name ≠ "export".toList then none
    let (name, rest) ← name? (Text.trimStart rest)
    return (name, ← equal? rest)

/-- The environment with the variable of a line; nothing if the line is malformed. -/
def addLine (e : Environment) (line : List Char) : Option Environment :=
  match Text.trim line with
  | [] => some e
  | c :: rest =>
    if c = '#' then some e
    else do
      let (name, rest) ← head? (c :: rest)
      let rest := Text.trimStart rest
      let found ← if rest.head? = some '#' then some [] else value e (.text false) rest
      return e.complete (String.ofList name) (String.ofList found)

/-- The environment with the variables of lines, up to the first malformed one. -/
def addLines (e : Environment) : List (Option (List Char)) → Environment
  | some line :: rest =>
    match e.addLine line with
    | some e => e.addLines rest
    | none => e
  | _ => e

/-- The pieces of octets that end with a mark, and the rest. -/
def pieces (mark : UInt8) (bs : Bytes) : List Bytes :=
  (bs.foldr (fun b parts =>
    if b = mark then [b] :: parts else (b :: parts.headD []) :: parts.tail) [[]]).filter (· != [])

/-- Octets without the mark that files of text may begin with. -/
def withoutMark (bs : Bytes) : Bytes :=
  if bs.take 3 = [0xEF, 0xBB, 0xBF] then bs.drop 3 else bs

/-- The environment with the variables of a file. -/
def addFile (e : Environment) (bs : Bytes) : Environment :=
  let lines := ((pieces 0x0A (withoutMark bs)).map Utf8.decode?).takeWhile Option.isSome
  e.addLines (joinLines .word [] (lines.map fun line => (line.getD "").toList))

/-- The environment in a block of octets: variables with a sign of equality between name
and value, and a zero octet behind each. -/
def ofBlock (bs : Bytes) : Environment :=
  (pieces 0 bs).filterMap fun entry => do
    let s ← Utf8.decode? (entry.filter (· != 0))
    let (name, found) := Text.splitOnce '=' s.toList
    return (String.ofList name, String.ofList (← found))

/-- The environment with the variables of the nearest file of the name in a folder or
above it; `fuel` bounds the number of folders. -/
def addNearest {m : Type → Type} [Monad m] (fs : FileSystem m) (name : String)
    (e : Environment) : Nat → String → m Environment
  | 0, _ => return e
  | fuel + 1, folder => do
    let path := Path.under folder name
    if (← fs.isPresent path) && !(← fs.isFolder path) then
      match ← fs.read path with
      | .ok bs => return e.addFile bs
      | .error _ => return e
    else
      match Path.parent? folder with
      | some above => addNearest fs name e fuel above
      | none => return e

/-- The environment with the variables of the file that the working folder has, or a
folder above it. -/
def addLocal {m : Type → Type} [Monad m] (fs : FileSystem m) (e : Environment) :
    m Environment := do
  match ← fs.workingFolder with
  | .ok folder => addNearest fs ".env" e ((Path.names folder).length + 1) folder
  | .error _ => return e

end Environment

end TokenAuthority
