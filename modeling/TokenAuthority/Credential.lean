import TokenAuthority.AuthError
import TokenAuthority.Text.Blank

/-!
# Credentials

What a caller presents. An authenticator looks at what a credential exposes, and not at
its kind.
-/

namespace TokenAuthority

/-- What a caller presents. -/
inductive Credential where
  | bearer (token : String)
  | password (username password : String)
  /-- A credential that exposes nothing. -/
  | bare
  deriving DecidableEq

namespace Credential

/-- Whom the caller claims to be. -/
def principal? : Credential → Option String
  | password username _ => some username
  | _ => none

/-- The password that a credential exposes. -/
def password? : Credential → Option String
  | password _ word => some word
  | _ => none

/-- The token that a credential exposes. -/
def bearer? : Credential → Option String
  | bearer token => some token
  | _ => none

/-- A credential as it is shown. A password never is. -/
def shown : Credential → String
  | bearer token => "BearerToken \x7b token: " ++ Text.shown token ++ " \x7d"
  | password username _ =>
    "UsernamePassword \x7b username: " ++ Text.shown username ++ ", password: \"***\" \x7d"
  | bare => ""

/-! ### Headers -/

/-- The scheme of a header that holds a token. -/
def scheme : List Char := "Bearer".toList

/-- The token in the value of an authorization header: the scheme in any case, a space,
and the token, with blanks around either. -/
def ofHeader (value : String) : Except BadRequest Credential :=
  let (first, rest) := Text.splitOnce ' ' (Text.trim value.toList)
  let token := Text.trim (rest.getD [])
  if !Text.eqIgnoringCase first scheme then .error .notBearer
  else if token = [] then .error .emptyToken
  else .ok (.bearer (String.ofList token))

end Credential

end TokenAuthority
