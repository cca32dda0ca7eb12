import TokenAuthority.Number.Binary64
import TokenAuthority.Text.Hex
import TokenAuthority.Time.Rfc3339

/-!
# The small parts of a document

Blanks and comments, texts in their four forms, numbers, and dates. Each reader takes
its part off the front and gives what follows, or nothing where there is no such part.
-/

namespace TokenAuthority.Toml

/-! ### Blanks and comments -/

/-- Whether a character is blank inside a line. -/
def isSpace (c : Char) : Bool := c == ' ' || c == '\t'

/-- What follows the blanks in front. -/
def skipSpace (cs : List Char) : List Char := cs.dropWhile isSpace

/-- Whether a character may stand in a comment. -/
def isCommentChar (c : Char) : Bool :=
  c == '\t' || (0x20 ≤ c.toNat && c.toNat != 0x7F)

/-- What follows the end of a line. -/
def newline? : List Char → Option (List Char)
  | '\n' :: rest => some rest
  | '\r' :: '\n' :: rest => some rest
  | _ => none

/-- What follows a comment, if there is one. -/
def skipComment : List Char → List Char
  | '#' :: rest => rest.dropWhile isCommentChar
  | cs => cs

/-- What follows the blanks and the comment that may stand at the end of a line, and
the end of the line itself or of the document. -/
def lineEnd? (cs : List Char) : Option (List Char) :=
  match skipComment (skipSpace cs) with
  | [] => some []
  | rest => newline? rest

/-- What follows blanks, comments and ends of lines. -/
def skipLines : Nat → List Char → Option (List Char)
  | 0, cs => some cs
  | fuel + 1, cs =>
    match skipSpace cs with
    | '#' :: rest => do skipLines fuel (← lineEnd? ('#' :: rest))
    | '\n' :: rest => skipLines fuel rest
    | '\r' :: rest => do skipLines fuel (← newline? ('\r' :: rest))
    | rest => some rest

/-! ### Texts -/

/-- Whether a character may stand in a text on one line. -/
def isTextChar (c : Char) : Bool := isCommentChar c

/-- The character with a number given by hexadecimal digits. -/
def codePoint? (digits : List Char) : Option Char := do
  let values ← digits.mapM Hex.value?
  let n := values.foldl (fun n d => n * 16 + d) 0
  if h : n.isValidChar then some (Char.ofNatAux n h) else none

/-- The character that an escape stands for, given without its backslash. -/
def escape? : List Char → Option (Char × List Char)
  | 'b' :: rest => some ('\x08', rest)
  | 't' :: rest => some ('\t', rest)
  | 'n' :: rest => some ('\n', rest)
  | 'f' :: rest => some ('\x0c', rest)
  | 'r' :: rest => some ('\r', rest)
  | '"' :: rest => some ('"', rest)
  | '\\' :: rest => some ('\\', rest)
  | 'u' :: rest =>
    if rest.length < 4 then none else do return (← codePoint? (rest.take 4), rest.drop 4)
  | 'U' :: rest =>
    if rest.length < 8 then none else do return (← codePoint? (rest.take 8), rest.drop 8)
  | _ => none

/-- A text with escapes up to its closing quote. -/
def basicBody : Nat → List Char → Option (List Char × List Char)
  | 0, _ => none
  | fuel + 1, cs =>
    let isPlain (c : Char) := isTextChar c && c != '"' && c != '\\'
    match cs.dropWhile isPlain with
    | '"' :: rest => some (cs.takeWhile isPlain, rest)
    | '\\' :: rest => do
      let (c, rest) ← escape? rest
      let (others, rest) ← basicBody fuel rest
      return (cs.takeWhile isPlain ++ c :: others, rest)
    | _ => none

/-- A text without escapes up to its closing quote. -/
def literalBody (cs : List Char) : Option (List Char × List Char) :=
  let isPlain (c : Char) := isTextChar c && c != '\''
  match cs.dropWhile isPlain with
  | '\'' :: rest => some (cs.takeWhile isPlain, rest)
  | _ => none

/-- How many quotes stand in front, and what follows them. -/
def quotes (q : Char) (cs : List Char) : Nat × List Char :=
  ((cs.takeWhile (· == q)).length, cs.dropWhile (· == q))

/-- What follows the blanks and the ends of lines in front. -/
def skipBlankLines : List Char → List Char
  | '\r' :: '\n' :: rest => skipBlankLines rest
  | c :: rest => if isSpace c || c == '\n' then skipBlankLines rest else c :: rest
  | [] => []

/-- What follows a backslash at the end of a line: the next line that is not blank. -/
def continued? (cs : List Char) : Option (List Char) :=
  (newline? (skipSpace cs)).map skipBlankLines

/-- A text of several lines up to its three closing quotes; one or two quotes in front
of these belong to the text. Escapes are only read where `escapes` says so. -/
def linesBody (escapes : Bool) (q : Char) : Nat → List Char → Option (List Char × List Char)
  | 0, _ => none
  | fuel + 1, cs =>
    let isPlain (c : Char) := isTextChar c && c != q && !(escapes && c == '\\')
    let plain := cs.takeWhile isPlain
    match cs.dropWhile isPlain with
    | '\n' :: rest => do
      let (others, rest) ← linesBody escapes q fuel rest
      return (plain ++ '\n' :: others, rest)
    | '\r' :: '\n' :: rest => do
      let (others, rest) ← linesBody escapes q fuel rest
      return (plain ++ '\n' :: others, rest)
    | c :: rest =>
      if c = q then
        let (n, behind) := quotes q (c :: rest)
        if n < 3 then do
          let (others, rest) ← linesBody escapes q fuel behind
          return (plain ++ List.replicate n q ++ others, rest)
        else if n ≤ 5 then some (plain ++ List.replicate (n - 3) q, behind)
        else some (plain ++ [q, q], List.replicate (n - 5) q ++ behind)
      else if escapes ∧ c = '\\' then
        match continued? rest with
        | some rest => do
          let (others, rest) ← linesBody escapes q fuel rest
          return (plain ++ others, rest)
        | none => do
          let (c, rest) ← escape? rest
          let (others, rest) ← linesBody escapes q fuel rest
          return (plain ++ c :: others, rest)
      else none
    | [] => none

/-- What follows the end of a line, which does not count at the start of a text of
several lines. -/
def skipFirstNewline (cs : List Char) : List Char :=
  (newline? cs).getD cs

/-- A text in any of its forms. -/
def text? (cs : List Char) : Option (String × List Char) := do
  let (s, rest) ← match cs with
    | '"' :: '"' :: '"' :: rest => linesBody true '"' (rest.length + 1) (skipFirstNewline rest)
    | '"' :: rest => basicBody (rest.length + 1) rest
    | '\'' :: '\'' :: '\'' :: rest =>
      linesBody false '\'' (rest.length + 1) (skipFirstNewline rest)
    | '\'' :: rest => literalBody rest
    | _ => none
  return (String.ofList s, rest)

/-- Whether a character may stand in a key without quotes. -/
def isKeyChar (c : Char) : Bool :=
  c.isAlphanum || c == '-' || c == '_'

/-- A key without dots. -/
def simpleKey? (cs : List Char) : Option (String × List Char) :=
  match cs with
  | '"' :: rest => do
    let (s, rest) ← basicBody (rest.length + 1) rest
    return (String.ofList s, rest)
  | '\'' :: rest => do
    let (s, rest) ← literalBody rest
    return (String.ofList s, rest)
  | _ =>
    let key := cs.takeWhile isKeyChar
    if key = [] then none else some (String.ofList key, cs.dropWhile isKeyChar)

/-! ### Numbers -/

/-- Digits of the given kind with single underscores between them. -/
def digits? (isDigit : Char → Bool) (cs : List Char) : Option (List Char × List Char) :=
  let run := cs.takeWhile fun c => isDigit c || c == '_'
  let parts := Text.split '_' run
  if parts.all fun p => p ≠ [] then
    some (parts.flatten, cs.dropWhile fun c => isDigit c || c == '_')
  else none

/-- The number that digits of a base stand for. -/
def ofDigits (base : Nat) (digits : List Char) : Nat :=
  digits.foldl (fun n c => n * base + (Hex.value? c).getD 0) 0

/-- Decimal digits, the first of which is no zero unless it is the only one. -/
def decimal? (cs : List Char) : Option (List Char × List Char) :=
  match cs with
  | '0' :: '_' :: _ => none
  | '0' :: rest => some (['0'], rest)
  | _ => digits? Char.isDigit cs

/-- A sign, if there is one: whether it is minus. -/
def sign (cs : List Char) : Bool × List Char :=
  match cs with
  | '-' :: rest => (true, rest)
  | '+' :: rest => (false, rest)
  | _ => (false, cs)

/-- The digits behind a point. -/
def fraction? (cs : List Char) : Option (List Char × List Char) :=
  match cs with
  | '.' :: rest => digits? Char.isDigit rest
  | _ => none

/-- The exponent behind its letter. -/
def exponent? (cs : List Char) : Option (Int × List Char) :=
  match cs with
  | c :: rest =>
    if c = 'e' ∨ c = 'E' then do
      let (minus, rest) := sign rest
      let (digits, rest) ← digits? Char.isDigit rest
      let n : Int := ofDigits 10 digits
      return (if minus then -n else n, rest)
    else none
  | [] => none

/-- A floating-point number, which has a fraction or an exponent. -/
def float? (cs : List Char) : Option (Binary64 × List Char) := do
  let (minus, rest) := sign cs
  let (whole, rest) ← decimal? rest
  let (fraction, rest, hasFraction) := match fraction? rest with
    | some (digits, rest) => (digits, rest, true)
    | none => ([], rest, false)
  let (exponent, rest, hasExponent) := match exponent? rest with
    | some (e, rest) => (e, rest, true)
    | none => (0, rest, false)
  if hasFraction ∨ hasExponent then
    match Binary64.ofDecimal minus (ofDigits 10 (whole ++ fraction)) (exponent - fraction.length) with
    | .infinite false => none
    | f => some (f, rest)
  else none

/-- An infinity or the undefined number. -/
def special? (cs : List Char) : Option (Binary64 × List Char) :=
  match sign cs with
  | (minus, 'i' :: 'n' :: 'f' :: rest) => some (.infinite minus, rest)
  | (_, 'n' :: 'a' :: 'n' :: rest) => some (.undefined, rest)
  | _ => none

/-- A whole number, decimal with or without a sign, or of base 16, 8 or 2. -/
def whole? (cs : List Char) : Option (Int × List Char) :=
  match cs with
  | '0' :: 'x' :: rest => do
    let (ds, rest) ← digits? (fun c => (Hex.value? c).isSome) rest
    return (ofDigits 16 ds, rest)
  | '0' :: 'o' :: rest => do
    let (ds, rest) ← digits? (fun c => '0' ≤ c && c ≤ '7') rest
    return (ofDigits 8 ds, rest)
  | '0' :: 'b' :: rest => do
    let (ds, rest) ← digits? (fun c => c == '0' || c == '1') rest
    return (ofDigits 2 ds, rest)
  | _ => do
    let (minus, rest) := sign cs
    let (ds, rest) ← decimal? rest
    let n : Int := ofDigits 10 ds
    return (if minus then -n else n, rest)

/-- A whole number of 64 binary digits with a sign. -/
def integer? (cs : List Char) : Option (Int × List Char) := do
  let (n, rest) ← whole? cs
  if -(1 <<< 63 : Nat) ≤ n ∧ n < (1 <<< 63 : Nat) then some (n, rest) else none

/-! ### Dates and times -/

/-- A number of exactly `width` digits within bounds. -/
def fixed? (width low high : Nat) (cs : List Char) : Option (Nat × List Char) :=
  let digits := cs.take width
  if digits.length = width ∧ digits.all Char.isDigit then
    let n := ofDigits 10 digits
    if low ≤ n ∧ n ≤ high then some (n, cs.drop width) else none
  else none

/-- What follows a character. -/
def char? (c : Char) : List Char → Option (List Char)
  | d :: rest => if d = c then some rest else none
  | [] => none

/-- What follows a date. -/
def date? (cs : List Char) : Option (List Char) := do
  let (year, cs) ← fixed? 4 0 9999 cs
  let cs ← char? '-' cs
  let (month, cs) ← fixed? 2 1 12 cs
  let cs ← char? '-' cs
  let (day, cs) ← fixed? 2 1 31 cs
  if (Date.mk year month day).isValid then some cs else none

/-- What follows a time of day. -/
def time? (cs : List Char) : Option (List Char) := do
  let (_, cs) ← fixed? 2 0 23 cs
  let cs ← char? ':' cs
  let (_, cs) ← fixed? 2 0 59 cs
  let cs ← char? ':' cs
  let (_, cs) ← fixed? 2 0 60 cs
  match cs with
  | '.' :: d :: rest =>
    if d.isDigit then some (rest.dropWhile Char.isDigit) else some cs
  | _ => some cs

/-- What follows a distance from Greenwich, if there is one. -/
def skipOffset (cs : List Char) : Option (List Char) :=
  match cs with
  | 'Z' :: rest => some rest
  | 'z' :: rest => some rest
  | c :: rest =>
    if c = '+' ∨ c = '-' then do
      let (_, rest) ← fixed? 2 0 23 rest
      let rest ← char? ':' rest
      let (_, rest) ← fixed? 2 0 59 rest
      return rest
    else some cs
  | [] => some []

/-- What follows a date, a time, or both. -/
def dateTime? (cs : List Char) : Option (List Char) :=
  match date? cs with
  | none => time? cs
  | some rest =>
    match rest with
    | c :: behind =>
      if c = 'T' ∨ c = 't' ∨ c = ' ' then
        match time? behind with
        | some behind => skipOffset behind
        | none => some rest
      else some rest
    | [] => some []

end TokenAuthority.Toml
