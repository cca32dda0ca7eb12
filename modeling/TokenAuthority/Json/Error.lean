import TokenAuthority.Found
import TokenAuthority.Number.Shortest

/-!
# What goes wrong when a record is read

The errors of the notation, and the errors of a well-formed text that is not the record
asked for.
-/

namespace TokenAuthority.Json

/-- What is wrong. -/
inductive Error where
  | endInValue
  | endInText
  | endInObject
  | endInList
  | noValue
  | noWord
  | noColon
  | noCommaInObject
  | noCommaInList
  | trailingComma
  | trailingCharacters
  | keyNotText
  | badNumber
  | numberTooLarge
  | badEscape
  | halfSurrogate
  | loneSurrogate
  | badCodePoint
  | controlCharacter
  | missing (field : String)
  | duplicate (field : String)
  | unknownChoice (choice : String) (choices : List String)
  | wrongKind (found : Found) (expected : String)
  | wrongValue (found : Found) (expected : String)
  | wrongLength (length : Nat) (expected : String)
  deriving DecidableEq, Repr

/-- The text of an error. -/
def Error.message : Error → String
  | endInValue => "EOF while parsing a value"
  | endInText => "EOF while parsing a string"
  | endInObject => "EOF while parsing an object"
  | endInList => "EOF while parsing a list"
  | noValue => "expected value"
  | noWord => "expected ident"
  | noColon => "expected `:`"
  | noCommaInObject => "expected `,` or `\x7d`"
  | noCommaInList => "expected `,` or `]`"
  | trailingComma => "trailing comma"
  | trailingCharacters => "trailing characters"
  | keyNotText => "key must be a string"
  | badNumber => "invalid number"
  | numberTooLarge => "number out of range"
  | badEscape => "invalid escape"
  | halfSurrogate => "unexpected end of hex escape"
  | loneSurrogate => "lone leading surrogate in hex escape"
  | badCodePoint => "invalid unicode code point"
  | controlCharacter => "control character (\\u0000-\\u001F) found while parsing a string"
  | missing f => "missing field `" ++ f ++ "`"
  | duplicate f => "duplicate field `" ++ f ++ "`"
  | unknownChoice c cs => "unknown variant `" ++ c ++ "`, expected " ++ choiceWords cs
  | wrongKind f e => "invalid type: " ++ f.words Shortest.compact ++ ", expected " ++ e
  | wrongValue f e => "invalid value: " ++ f.words Shortest.compact ++ ", expected " ++ e
  | wrongLength n e => "invalid length " ++ toString n ++ ", expected " ++ e

end TokenAuthority.Json
