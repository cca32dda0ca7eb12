import TokenAuthority.AuthError
import TokenAuthority.Text.Blank
import TokenAuthority.Time.Instant
import TokenAuthority.Token.Contents

/-!
# Tokens

A token is written in three parts with dots between them: the header, the claims, and
the signature of the other two with their dot. Reading looks at the form alone; whether
the signature is one, and whether the token still holds, is another question.
-/

namespace TokenAuthority

/-- A token of the right form. -/
structure Token where
  header : Header
  claims : Claims
  /-- The octets that were signed. -/
  signed : Bytes
  signature : Bytes
  deriving DecidableEq

namespace Token

/-- The octets of a part, without its base 64. -/
def decodePart (part : TokenPart) (cs : List Char) : Except Malformation Bytes :=
  match Base64.url.decode (Utf8.encode (String.ofList cs)) with
  | .ok bs => .ok bs
  | .error e => .error (.notBase64 part e)

/-- A part that is a record. -/
def readPart {α : Type} (part : TokenPart) (read : Bytes → Except Json.Error α)
    (cs : List Char) : Except Malformation α := do
  let bs ← decodePart part cs
  match read bs with
  | .ok a => return a
  | .error e => throw (.notRecord part e)

/-- The header and the claims as they are signed. -/
def signedForm (header claims : List Char) : Bytes :=
  Utf8.encode (String.ofList (header ++ '.' :: claims))

/-- The token with the given parts. -/
def ofParts (header claims signature : List Char) : Except Malformation Token := do
  let h ← readPart .header Header.read header
  if h.keyId = "" then throw .emptyKeyId
  let c ← readPart .payload Claims.read claims
  let s ← decodePart .signature signature
  return ⟨h, c, signedForm header claims, s⟩

/-- The token that a text stands for. -/
def parse (data : String) : Except Malformation Token :=
  match Text.split '.' data.toList with
  | [header, claims, signature] => ofParts header claims signature
  | _ => .error .notThreeParts

/-- The instant of issue, if there is such an instant. -/
def issued? (t : Token) : Option Instant :=
  Instant.ofSeconds? t.claims.issuedAt

/-- The instant of expiry, if there is such an instant. -/
def expiry? (t : Token) : Option Instant :=
  Instant.ofSeconds? t.claims.expiresAt

end Token

end TokenAuthority
