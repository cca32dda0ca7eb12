import TokenAuthority.Bytes

/-!
# Text as octets

Text and its UTF-8 form. Reading refuses everything that is not the UTF-8 form of
a text: stray and missing continuation octets, forms that are too long, surrogates
and numbers beyond the last code point.
-/

namespace TokenAuthority.Utf8

/-- The UTF-8 form of a text. -/
def encode (s : String) : Bytes :=
  s.toList.flatMap String.utf8EncodeChar

@[simp] theorem encode_empty : encode "" = [] := rfl

theorem encode_ofList (cs : List Char) :
    encode (String.ofList cs) = cs.flatMap String.utf8EncodeChar := by
  simp [encode]

/-- The text of which these octets are the UTF-8 form. -/
def decode? (bs : Bytes) : Option String :=
  String.fromUTF8? (ByteArray.mk bs.toArray)

/-- How many octets the UTF-8 form of a text has. -/
def size (s : String) : Nat :=
  s.utf8ByteSize

end TokenAuthority.Utf8
