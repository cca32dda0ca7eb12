import TokenAuthority.Algorithm
import TokenAuthority.Json.Record
import TokenAuthority.Json.Written

/-!
# What a token says

A header tells how the token was signed, and the claims whom it is for and until when it
holds. Both are written as objects without any space, and read as records in any
spelling. Instants are given in seconds since the beginning of 1970.
-/

namespace TokenAuthority

/-- How a token was signed. -/
structure Header where
  algorithm : Algorithm
  keyId : String
  /-- The kind of thing that a token is. -/
  mediaType : Option String
  deriving DecidableEq, Repr

/-- What a token claims. -/
structure Claims where
  subject : String
  issuedAt : Int
  expiresAt : Int
  deriving DecidableEq, Repr

namespace Header

/-! ### Writing -/

/-- The kind of thing that every issued token is. -/
def tokenType : String := "JWT"

/-- The members of a header. -/
def members (h : Header) : Json.Members :=
  [("alg", Json.quoted h.algorithm.name), ("kid", Json.quoted h.keyId)] ++
    (h.mediaType.map fun s => ("typ", Json.quoted s)).toList

/-- The octets of a header. -/
def write (h : Header) : Bytes :=
  Utf8.encode (String.ofList (Json.compact h.members))

/-! ### Reading -/

/-- A header of which some fields were read. -/
structure Draft where
  algorithm : Option Algorithm
  keyId : Option String
  mediaType : Option (Option String)

/-- The fields of a header. -/
def record : Json.Record Draft where
  name := "TokenHeader"
  blank := ⟨none, none, none⟩
  fields := [
    { name := "alg"
      given := fun d => d.algorithm.isSome
      optional := false
      read := fun d bs => do
        let (a, bs) ← Json.choice (Algorithm.all.map fun a => (a.name, a)) bs
        return ({ d with algorithm := some a }, bs) },
    { name := "kid"
      given := fun d => d.keyId.isSome
      optional := false
      read := fun d bs => do
        let (s, bs) ← Json.text bs
        return ({ d with keyId := some s }, bs) },
    { name := "typ"
      given := fun d => d.mediaType.isSome
      optional := true
      read := fun d bs => do
        let (s, bs) ← Json.optionalText bs
        return ({ d with mediaType := some s }, bs) }]

/-- The header that octets stand for. -/
def read (bs : Bytes) : Except Json.Error Header := do
  let d ← record.readAll bs
  match d.algorithm, d.keyId with
  | some a, some id => return ⟨a, id, d.mediaType.join⟩
  | none, _ => throw (.missing "alg")
  | _, none => throw (.missing "kid")

end Header

namespace Claims

/-! ### Writing -/

/-- The members of claims. -/
def members (c : Claims) : Json.Members :=
  [("sub", Json.quoted c.subject), ("iat", Json.writtenInteger c.issuedAt),
    ("exp", Json.writtenInteger c.expiresAt)]

/-- The octets of claims. -/
def write (c : Claims) : Bytes :=
  Utf8.encode (String.ofList (Json.compact c.members))

/-! ### Reading -/

/-- Claims of which some fields were read. -/
structure Draft where
  subject : Option String
  issuedAt : Option Int
  expiresAt : Option Int

/-- The fields of claims. -/
def record : Json.Record Draft where
  name := "TokenClaims"
  blank := ⟨none, none, none⟩
  fields := [
    { name := "sub"
      given := fun d => d.subject.isSome
      optional := false
      read := fun d bs => do
        let (s, bs) ← Json.text bs
        return ({ d with subject := some s }, bs) },
    { name := "iat"
      given := fun d => d.issuedAt.isSome
      optional := false
      read := fun d bs => do
        let (n, bs) ← Json.integer bs
        return ({ d with issuedAt := some n }, bs) },
    { name := "exp"
      given := fun d => d.expiresAt.isSome
      optional := false
      read := fun d bs => do
        let (n, bs) ← Json.integer bs
        return ({ d with expiresAt := some n }, bs) }]

/-- The claims that octets stand for. -/
def read (bs : Bytes) : Except Json.Error Claims := do
  let d ← record.readAll bs
  match d.subject, d.issuedAt, d.expiresAt with
  | some s, some i, some e => return ⟨s, i, e⟩
  | none, _, _ => throw (.missing "sub")
  | _, none, _ => throw (.missing "iat")
  | _, _, none => throw (.missing "exp")

end Claims

end TokenAuthority
