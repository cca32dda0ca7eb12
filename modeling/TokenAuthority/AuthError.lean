import TokenAuthority.Files.Error
import TokenAuthority.Json.Error
import TokenAuthority.KeyError
import TokenAuthority.Text.Base64
import TokenAuthority.Time.Instant
import TokenAuthority.Toml.Item

/-!
# What goes wrong

The causes of every error of the library, sorted by category. `message` is the text of
an error and `reason` the part of it that follows the name of the category. The reasons
for refusing a token are a type of their own, because they do not leave the library
where a caller is authenticated.
-/

namespace TokenAuthority

/-- The parts of a token that are written as records. -/
inductive TokenPart where
  | header
  | payload
  | signature
  deriving DecidableEq, Repr

/-- The name of a part. -/
def TokenPart.name : TokenPart → String
  | header => "header"
  | payload => "payload"
  | signature => "signature"

/-- Why a token is malformed. -/
inductive Malformation where
  | notThreeParts
  | emptyKeyId
  | notBase64 (part : TokenPart) (error : Base64.Error)
  | notRecord (part : TokenPart) (error : Json.Error)
  | stated (text : String)
  deriving DecidableEq, Repr

/-- A malformation in words. -/
def Malformation.words : Malformation → String
  | notThreeParts => "expected three dot separated parts"
  | emptyKeyId => "empty key id"
  | notBase64 part e => part.name ++ " is not base64url: " ++ e.message
  | notRecord part e => "invalid " ++ part.name ++ ": " ++ e.message
  | stated text => text

/-- Why a token is refused. -/
inductive Refusal where
  | malformed (why : Malformation)
  /-- No key with this id is retained. -/
  | unknownKey (id : String)
  | badSignature
  | expired
  deriving DecidableEq, Repr

/-- The text of a refusal. -/
def Refusal.message : Refusal → String
  | malformed why => "malformed token: " ++ why.words
  | unknownKey id => "unknown signing key: " ++ id
  | badSignature => "bad signature"
  | expired => "token expired"

/-- Why a key document is corrupt. -/
inductive Corruption where
  | notDocument (error : Toml.Error)
  | unknownAlgorithm (name : String)
  | missingEntry (name : String)
  | notBase64 (name : String) (error : Base64.Error)
  /-- The halves of a key pair are unreadable or do not belong together. -/
  | badPair (error : KeyError)
  /-- The material cannot be used with the algorithm. -/
  | unsuited (error : KeyError)
  deriving DecidableEq, Repr

/-- A corruption in words. -/
def Corruption.words : Corruption → String
  | notDocument e => e.message
  | unknownAlgorithm name => "unknown algorithm " ++ name
  | missingEntry name => "missing `" ++ name ++ "` entry"
  | notBase64 name e => "`" ++ name ++ "` is not valid base64: " ++ e.message
  | badPair e => e.message
  | unsuited e => "Cryptographic error: " ++ e.message

/-- What is wrong with the settings or with what they point to. -/
inductive Misconfiguration where
  | emptyRing
  /-- A key was to be added to a ring of keys for another algorithm. -/
  | wrongAlgorithm (key ring : Algorithm)
  | unknownAlgorithm (name : String)
  | noKeys
  | lifetimeOutOfRange (seconds : Int)
  | noWorkingFolder (error : FileError)
  | cannotCreate (path : String) (error : FileError)
  | cannotResolve (path : String) (error : FileError)
  | cannotRead (path : String) (error : FileError)
  | corrupt (why : Corruption)
  | stated (text : String)
  deriving DecidableEq, Repr

/-- A misconfiguration in words. -/
def Misconfiguration.words : Misconfiguration → String
  | emptyRing => "a key ring must hold at least one key"
  | wrongAlgorithm key ring =>
    "cannot add a " ++ key.name ++ " key to a " ++ ring.name ++ " key ring"
  | unknownAlgorithm name => "unsupported signature algorithm: " ++ name
  | noKeys => "the maximum number of in-memory keys must be at least 1"
  | lifetimeOutOfRange n => "token lifetime out of range: " ++ toString n ++ " seconds"
  | noWorkingFolder e => "cannot read the current directory: " ++ e.message
  | cannotCreate path e => "cannot create the keystore folder " ++ path ++ ": " ++ e.message
  | cannotResolve path e => "cannot resolve " ++ path ++ ": " ++ e.message
  | cannotRead path e => "cannot read the signing key file " ++ path ++ ": " ++ e.message
  | corrupt why => "corrupt signing key file: " ++ why.words
  | stated text => text

/-- Why a request is refused. -/
inductive BadRequest where
  | emptyPrincipal
  | notBearer
  | emptyToken
  | lifetimeOutOfRange (seconds : Int)
  | stated (text : String)
  deriving DecidableEq, Repr

/-- A bad request in words. -/
def BadRequest.words : BadRequest → String
  | emptyPrincipal => "cannot issue a token for an empty principal"
  | notBearer => "Bad authorization header content (bad bearer)"
  | emptyToken => "Bad authorization header content (empty token)"
  | lifetimeOutOfRange n => "lifetime out of range: " ++ toString n
  | stated text => text

/-- What goes wrong when the current key is kept. -/
inductive StoreFailure where
  | cannotWrite (path : String) (error : FileError)
  | cannotReplace (path : String) (error : FileError)
  | cannotRemove (path : String) (error : FileError)
  | stated (text : String)
  deriving DecidableEq, Repr

/-- A failure of a store in words. -/
def StoreFailure.words : StoreFailure → String
  | cannotWrite path e => "cannot write the signing key file " ++ path ++ ": " ++ e.message
  | cannotReplace path e => "cannot replace the signing key file " ++ path ++ ": " ++ e.message
  | cannotRemove path e => "cannot remove the signing key file " ++ path ++ ": " ++ e.message
  | stated text => text

/-- What cannot be turned into what. -/
inductive BadConversion where
  | timestampOutOfRange (seconds : Int)
  /-- The second at the end of a lifetime is no number of 64 binary digits. -/
  | lifetimeOverflow (lifetime : Duration)
  | json (error : Json.Error)
  | base64 (error : Base64.Error)
  | toml (error : Toml.Error)
  | stated (text : String)
  deriving DecidableEq, Repr

/-- A bad conversion in words. -/
def BadConversion.words : BadConversion → String
  | timestampOutOfRange n => "timestamp out of range: " ++ toString n
  | lifetimeOverflow d => "token lifetime overflow: " ++ d.text
  | json e => e.message
  | base64 e => e.message
  | toml e => e.message
  | stated text => text

/-- An error of the library. -/
inductive AuthError where
  | configuration (why : Misconfiguration)
  | verification (why : Refusal)
  | unsupportedCredential (text : String)
  | invalidRequest (why : BadRequest)
  | keyStore (why : StoreFailure)
  | cryptographic (why : KeyError)
  | conversion (why : BadConversion)
  | server (text : String)
  deriving DecidableEq, Repr

namespace AuthError

/-- The cause in words, without the category. -/
def reason : AuthError → String
  | configuration why => why.words
  | verification why => why.message
  | unsupportedCredential text => text
  | invalidRequest why => why.words
  | keyStore why => why.words
  | cryptographic why => why.message
  | conversion why => why.words
  | server text => text

/-- What stands before the cause. -/
def label : AuthError → String
  | configuration _ => "Configuration error: "
  | verification _ => "Token verification failed: "
  | unsupportedCredential _ => "Unsupported credential: "
  | invalidRequest _ => "Invalid Request: "
  | keyStore _ => "Key store error: "
  | cryptographic _ => "Cryptographic error: "
  | conversion _ => "Conversion Error: "
  | server _ => "Unexpected server error: "

/-- The text of an error. -/
def message (e : AuthError) : String :=
  e.label ++ e.reason

/-- The refusal of a token that an error stands for. -/
def refusal? : AuthError → Option Refusal
  | verification why => some why
  | _ => none

/-- The error of something that went wrong while `context` was being done. -/
def within (context text : String) : AuthError :=
  .server (context ++ ": " ++ text)

/-- A name with an argument in brackets, as errors are shown. -/
def shownWith (name argument : String) : String :=
  name ++ "(" ++ argument ++ ")"

/-- A refusal as it is shown. -/
def shownRefusal : Refusal → String
  | .malformed why => shownWith "Malformed" (Text.shown why.words)
  | .unknownKey id => shownWith "UnknownKey" (Text.shown id)
  | .badSignature => "BadSignature"
  | .expired => "Expired"

/-- An error as it is shown where a program ends with it. -/
def shown (e : AuthError) : String :=
  match e with
  | configuration _ => shownWith "Configuration" (Text.shown e.reason)
  | verification why => shownWith "Verification" (shownRefusal why)
  | unsupportedCredential _ => shownWith "UnsupportedCredential" (Text.shown e.reason)
  | invalidRequest _ => shownWith "InvalidRequest" (Text.shown e.reason)
  | keyStore _ => shownWith "KeyStore" (Text.shown e.reason)
  | cryptographic _ => shownWith "CryptographicError" (Text.shown e.reason)
  | conversion _ => shownWith "ConversionError" (Text.shown e.reason)
  | server _ => shownWith "ServerError" (Text.shown e.reason)

end AuthError

end TokenAuthority
