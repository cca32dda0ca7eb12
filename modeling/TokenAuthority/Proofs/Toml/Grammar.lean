import TokenAuthority.Toml.Document

/-!
# The notation of documents

Documents of headers and of entries with texts and whole numbers, told without a reader. Blanks
may stand between the parts of a line, comments behind it, and lines with neither anywhere. A
text may be given in four forms, a character of it by itself or by any escape that stands for
it, and a number in four bases with underscores among its digits.
-/

namespace TokenAuthority.Toml

/-! ### Blanks, comments and ends of lines -/

/-- Blanks inside a line, or nothing. -/
def IsBlank (cs : List Char) : Prop := ∀ c ∈ cs, isSpace c

/-- The end of a line. -/
inductive IsNewline : List Char → Prop
  | feed : IsNewline ['\n']
  | returnFeed : IsNewline ['\r', '\n']

/-- A comment, or nothing. -/
inductive IsComment : List Char → Prop
  | none : IsComment []
  | some {cs : List Char} (visible : ∀ c ∈ cs, isCommentChar c) : IsComment ('#' :: cs)

/-- What stands behind a line, without its end. -/
inductive IsTail : List Char → Prop
  | mk {blank comment : List Char} (blanks : IsBlank blank) (remark : IsComment comment) :
    IsTail (blank ++ comment)

/-- Lines that say nothing, and the blanks in front of the next line. -/
inductive IsGap : List Char → Prop
  | blank {blank : List Char} (blanks : IsBlank blank) : IsGap blank
  | line {tail newline others : List Char} (silent : IsTail tail) (ends : IsNewline newline)
    (behind : IsGap others) : IsGap (tail ++ (newline ++ others))

/-! ### Texts -/

/-- A hexadecimal digit of either case. -/
def IsHexDigit (n : Nat) (c : Char) : Prop :=
  n < 16 ∧ (c = Hex.digit n ∨ c = (Hex.digit n).toUpper)

/-- The hexadecimal digits of a number. -/
inductive IsHex : Nat → List Char → Prop
  | nil : IsHex 0 []
  | append {n d : Nat} {ds : List Char} {c : Char} (front : IsHex n ds) (last : IsHexDigit d c) :
    IsHex (n * 16 + d) (ds ++ [c])

/-- The characters that a single letter behind a backslash stands for. -/
def shortEscapes : List (Char × Char) :=
  [('b', '\x08'), ('t', '\t'), ('n', '\n'), ('f', '\x0c'), ('r', '\r'), ('"', '"'), ('\\', '\\')]

/-- What stands behind the backslash of an escaped character: a letter, or the number of the
character in four digits or in eight. -/
inductive IsEscape (c : Char) : List Char → Prop
  | short {letter : Char} (listed : (letter, c) ∈ shortEscapes) : IsEscape c [letter]
  | four {ds : List Char} (number : IsHex c.toNat ds) (length : ds.length = 4) :
    IsEscape c ('u' :: ds)
  | eight {ds : List Char} (number : IsHex c.toNat ds) (length : ds.length = 8) :
    IsEscape c ('U' :: ds)

/-- What stands between quotes on one line for characters. -/
inductive IsBasic : List Char → List Char → Prop
  | nil : IsBasic [] []
  | plain {c : Char} {cs form : List Char} (text : isTextChar c) (quote : c ≠ '"')
    (backslash : c ≠ '\\') (behind : IsBasic cs form) : IsBasic (c :: cs) (c :: form)
  | escaped {c : Char} {cs letters form : List Char} (escape : IsEscape c letters)
    (behind : IsBasic cs form) : IsBasic (c :: cs) ('\\' :: (letters ++ form))

/-- Characters that stand for themselves between apostrophes on one line. -/
def IsLiteral (cs : List Char) : Prop := ∀ c ∈ cs, isTextChar c ∧ c ≠ '\''

/-- Blanks and ends of lines, or nothing. -/
inductive IsBlankLines : List Char → Prop
  | nil : IsBlankLines []
  | blank {c : Char} {others : List Char} (space : isSpace c) (behind : IsBlankLines others) :
    IsBlankLines (c :: others)
  | newline {newline others : List Char} (ends : IsNewline newline)
    (behind : IsBlankLines others) : IsBlankLines (newline ++ others)

/-- What stands on several lines between three quotes, or between three apostrophes where
there are no escapes. Up to two of them that do not close the text belong to it. The end of a
line is one character however it is written, and counts for nothing behind a backslash, like
the blanks and the ends of lines that follow it. -/
inductive IsLines (escapes : Bool) (q : Char) : List Char → List Char → Prop
  | close {n : Nat} (few : n ≤ 2) : IsLines escapes q (List.replicate n q) (List.replicate n q)
  | plain {c : Char} {cs form : List Char} (text : isTextChar c) (quote : c ≠ q)
    (backslash : escapes → c ≠ '\\') (behind : IsLines escapes q cs form) :
    IsLines escapes q (c :: cs) (c :: form)
  | newline {newline cs form : List Char} (ends : IsNewline newline)
    (behind : IsLines escapes q cs form) : IsLines escapes q ('\n' :: cs) (newline ++ form)
  | quotes {n : Nat} {c : Char} {cs form : List Char} (few : n ≤ 2) (other : c ≠ q)
    (behind : IsLines escapes q cs (c :: form)) :
    IsLines escapes q (List.replicate n q ++ cs) (List.replicate n q ++ c :: form)
  | escaped {c : Char} {cs letters form : List Char} (allowed : escapes)
    (escape : IsEscape c letters) (behind : IsLines escapes q cs form) :
    IsLines escapes q (c :: cs) ('\\' :: (letters ++ form))
  | continued {blank newline skipped cs form : List Char} (allowed : escapes)
    (blanks : IsBlank blank) (ends : IsNewline newline) (gap : IsBlankLines skipped)
    (visible : ∀ c ∈ form.head?, ¬isSpace c ∧ c ≠ '\n' ∧ c ≠ '\r')
    (behind : IsLines escapes q cs form) :
    IsLines escapes q cs ('\\' :: (blank ++ (newline ++ (skipped ++ form))))

/-- A text on one line with its quotes. -/
inductive IsQuoted (s : String) : List Char → Prop
  | basic {form : List Char} (spelled : IsBasic s.toList form) : IsQuoted s ('"' :: (form ++ ['"']))
  | literal (spelled : IsLiteral s.toList) : IsQuoted s ('\'' :: (s.toList ++ ['\'']))

/-- The end of a line in front of what follows, which does not count, or nothing. -/
inductive IsFirst (form : List Char) : List Char → Prop
  | none (visible : ∀ c ∈ form.head?, c ≠ '\n' ∧ c ≠ '\r') : IsFirst form []
  | newline {newline : List Char} (ends : IsNewline newline) : IsFirst form newline

/-- A text with its quotes. -/
inductive IsText (s : String) : List Char → Prop
  | line {cs : List Char} (quoted : IsQuoted s cs) : IsText s cs
  | basicLines {first form : List Char} (begins : IsFirst form first)
    (spelled : IsLines true '"' s.toList form) :
    IsText s ('"' :: '"' :: '"' :: (first ++ (form ++ ['"', '"', '"'])))
  | literalLines {first form : List Char} (begins : IsFirst form first)
    (spelled : IsLines false '\'' s.toList form) :
    IsText s ('\'' :: '\'' :: '\'' :: (first ++ (form ++ ['\'', '\'', '\''])))

/-! ### Whole numbers -/

/-- Digits of a kind, and how they are written with single underscores between them. -/
inductive IsDigits (isDigit : Char → Bool) : List Char → List Char → Prop
  | last {d : Char} (digit : isDigit d) : IsDigits isDigit [d] [d]
  | next {d : Char} {ds cs : List Char} (digit : isDigit d) (behind : IsDigits isDigit ds cs) :
    IsDigits isDigit (d :: ds) (d :: cs)
  | spaced {d : Char} {ds cs : List Char} (digit : isDigit d) (behind : IsDigits isDigit ds cs) :
    IsDigits isDigit (d :: ds) (d :: '_' :: cs)

/-- Decimal digits, with no zero in front of others. -/
inductive IsDecimal : List Char → List Char → Prop
  | mk {ds cs : List Char} (digits : IsDigits Char.isDigit ds cs)
    (leading : ds.head? = some '0' → ds = ['0']) : IsDecimal ds cs

/-- The letters that stand for other bases, with the digits of each. -/
inductive IsBase : Char → Nat → (Char → Bool) → Prop
  | hexadecimal : IsBase 'x' 16 fun c => (Hex.value? c).isSome
  | octal : IsBase 'o' 8 fun c => '0' ≤ c && c ≤ '7'
  | binary : IsBase 'b' 2 fun c => c == '0' || c == '1'

/-- A whole number. -/
inductive IsInteger : Int → List Char → Prop
  | positive {sign ds cs : List Char} (signed : sign = [] ∨ sign = ['+'])
    (digits : IsDecimal ds cs) : IsInteger (ofDigits 10 ds) (sign ++ cs)
  | negative {ds cs : List Char} (digits : IsDecimal ds cs) :
    IsInteger (-ofDigits 10 ds) ('-' :: cs)
  | based {letter : Char} {base : Nat} {isDigit : Char → Bool} {ds cs : List Char}
    (lettered : IsBase letter base isDigit) (digits : IsDigits isDigit ds cs) :
    IsInteger (ofDigits base ds) ('0' :: letter :: cs)

/-- A whole number of 64 binary digits with a sign. -/
def IsWord (n : Int) : Prop := -9223372036854775808 ≤ n ∧ n < 9223372036854775808

/-! ### Documents -/

/-- A value: a text, or a whole number of 64 binary digits. -/
inductive IsValue : Item → List Char → Prop
  | text {s : String} {cs : List Char} (spelled : IsText s cs) : IsValue (.text s) cs
  | integer {n : Int} {cs : List Char} (spelled : IsInteger n cs) (word : IsWord n) :
    IsValue (.integer n) cs

/-- A key that needs no quotes. -/
def IsBare (key : String) : Prop :=
  key.toList ≠ [] ∧ ∀ c ∈ key.toList, isKeyChar c

instance (key : String) : Decidable (IsBare key) :=
  decidable_of_iff (key.toList ≠ [] ∧ key.toList.all isKeyChar)
    (and_congr_right fun _ => List.all_eq_true)

/-- A key without dots, with quotes or without. -/
inductive IsKey (key : String) : List Char → Prop
  | bare (bare : IsBare key) : IsKey key key.toList
  | quoted {cs : List Char} (quoted : IsQuoted key cs) : IsKey key cs

/-- A line: the header of a table, or an entry. -/
inductive IsLine : Line → List Char → Prop
  | header {key : String} {before name behind : List Char} (leading : IsBlank before)
    (named : IsKey key name) (trailing : IsBlank behind) :
    IsLine (.header ⟨false, [key]⟩) ('[' :: (before ++ (name ++ (behind ++ [']']))))
  | entry {key : String} {item : Item} {name before behind value : List Char}
    (named : IsKey key name) (trailing : IsBlank before) (leading : IsBlank behind)
    (told : IsValue item value) :
    IsLine (.entry [] key item) (name ++ (before ++ '=' :: (behind ++ value)))

/-- A document, given by its lines. -/
inductive IsDocument : List Line → List Char → Prop
  | empty {gap comment : List Char} (silent : IsGap gap) (remark : IsComment comment) :
    IsDocument [] (gap ++ comment)
  | last {line : Line} {gap form tail : List Char} (silent : IsGap gap) (spelled : IsLine line form)
    (trailing : IsTail tail) : IsDocument [line] (gap ++ (form ++ tail))
  | next {line : Line} {lines : List Line} {gap form tail newline others : List Char}
    (silent : IsGap gap) (spelled : IsLine line form) (trailing : IsTail tail)
    (ends : IsNewline newline) (behind : IsDocument lines others) :
    IsDocument (line :: lines) (gap ++ (form ++ (tail ++ (newline ++ others))))

end TokenAuthority.Toml
