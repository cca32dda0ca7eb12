import TokenAuthority.Text.Hex
import TokenAuthority.Text.Unseen

/-!
# Text in quotes

How a text is shown to a person: between quotes, with the quote, the backslash and
every character without a sight of its own written as an escape.
-/

namespace TokenAuthority.Text

/-- A character in quotes of the kind `quote`. -/
def shownChar (quote : Char → Bool) (c : Char) : List Char :=
  if c = '\x00' then ['\\', '0']
  else if c = '\t' then ['\\', 't']
  else if c = '\r' then ['\\', 'r']
  else if c = '\n' then ['\\', 'n']
  else if c = '\\' || quote c then ['\\', c]
  else if isUnseen c then ['\\', 'u', '\x7b'] ++ Hex.ofNat c.toNat ++ ['\x7d']
  else [c]

/-- A text between double quotes. -/
def shown (s : String) : String :=
  String.ofList ('"' :: s.toList.flatMap (shownChar (· == '"')) ++ ['"'])

/-- A path between double quotes; the apostrophe is escaped as well. -/
def shownPath (s : String) : String :=
  String.ofList ('"' :: s.toList.flatMap (shownChar fun c => c == '"' || c == '\'') ++ ['"'])

end TokenAuthority.Text
