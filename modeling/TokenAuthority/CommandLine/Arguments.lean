import TokenAuthority.CommandLine.Environment
import TokenAuthority.Settings.Basic

/-!
# The command line

Options that hold for all commands, a command, and what the command takes. A setting that
no option tells is taken from the environment, and has its default otherwise. Whatever
does not have this form is a misuse of the program; its cause is not told apart.
-/

namespace TokenAuthority

/-- What the program is asked to do. -/
inductive Command where
  /-- Issue a token for a principal, with a lifetime in seconds of its own. -/
  | issue (principal : String) (lifetime : Option Int)
  | verify (token : String)
  /-- Show what a token says, without verifying it. -/
  | inspect (token : String)
  | renew
  | revoke
  | info
  deriving DecidableEq

/-- A command line that was understood. -/
structure Arguments where
  /-- The file that replaces all settings. -/
  settingsFile : Option String
  settings : Settings
  command : Command
  deriving DecidableEq

namespace Arguments

/-! ### Words -/

/-- What a word of the command line looks like. -/
inductive Word where
  /-- A name behind two hyphens, with what follows a sign of equality. -/
  | option (name : String) (value : Option String)
  /-- Two hyphens alone: no options follow. -/
  | noMoreOptions
  /-- Any other word that begins with a hyphen, and has more. -/
  | flag
  | plain

/-- What a word looks like. -/
def Word.of (s : String) : Word :=
  match s.toList with
  | ['-', '-'] => .noMoreOptions
  | '-' :: '-' :: rest =>
    let (name, value) := Text.splitOnce '=' rest
    .option (String.ofList name) (value.map String.ofList)
  | '-' :: _ :: _ => .flag
  | _ => .plain

/-- Whether a word is a number below zero. -/
def isNegative (s : String) : Bool :=
  match s.toList with
  | '-' :: c :: rest => (c :: rest).all Char.isDigit
  | _ => false

/-- The options of a command, and whether the value of each may be a number below zero. -/
abbrev Options := List (String × Bool)

/-- Options with their values, and the words that are no options. -/
structure Given where
  options : List (String × String) := []
  words : List String := []

/-- Adds an option in front, which must not be among the others. -/
def Given.add (g : Given) (name value : String) : Option Given :=
  if (g.options.lookup name).isSome then none
  else some { g with options := (name, value) :: g.options }

/-- Sorts words into options with values and other words. If `first` is set, the first
word that is no option ends the options. -/
def sortWords (known : Options) (first : Bool) : List String → Option Given
  | [] => some {}
  | s :: rest =>
    match Word.of s with
    | .flag => none
    | .noMoreOptions => if first then none else some { words := rest }
    | .plain =>
      if first then some { words := s :: rest }
      else do
        let g ← sortWords known first rest
        return { g with words := s :: g.words }
    | .option name value =>
      match known.lookup name, value, rest with
      | some _, some value, rest => do (← sortWords known first rest).add name value
      | some signed, none, value :: rest =>
        match Word.of value with
        | .plain => do (← sortWords known first rest).add name value
        | _ =>
          if signed && isNegative value then do (← sortWords known first rest).add name value
          else none
      | _, _, _ => none

/-! ### Values -/

/-- The number that digits stand for. -/
def digits? (cs : List Char) : Option Nat :=
  if cs ≠ [] ∧ cs.all Char.isDigit then
    some (cs.foldl (fun n c => n * 10 + (c.toNat - 48)) 0)
  else none

/-- A whole number of 64 binary digits with a sign. -/
def integer? (s : String) : Option Int := do
  let n ← match s.toList with
    | '-' :: cs => (digits? cs).map fun n => -(n : Int)
    | '+' :: cs => (digits? cs).map Int.ofNat
    | cs => (digits? cs).map Int.ofNat
  if -(1 <<< 63 : Nat) ≤ n ∧ n < (1 <<< 63 : Nat) then some n else none

/-- A count of 64 binary digits. -/
def count? (s : String) : Option Nat := do
  let n ← match s.toList with
    | '+' :: cs => digits? cs
    | cs => digits? cs
  if n < 1 <<< 64 then some n else none

/-- A path, which is not empty. -/
def path? (s : String) : Option String :=
  if s = "" then none else some s

/-- The kind of stores with a name. -/
def store? (s : String) : Option StoreKind :=
  StoreKind.all.find? fun k => k.name == s

/-! ### Settings -/

/-- Where a setting is taken from: an option, or a variable of the environment. -/
structure Source where
  given : Given
  environment : Environment

/-- The value of a setting as it was given, if it was. -/
def Source.find? (s : Source) (option name : String) : Option String :=
  (s.given.options.lookup option).or (s.environment.lookup name)

/-- A setting with a default, read from its value. -/
def Source.setting {α : Type} (s : Source) (option name : String)
    (read : String → Option α) (default : α) : Option α :=
  match s.find? option name with
  | some value => read value
  | none => some default

/-- The options for all commands. -/
def globalOptions : Options :=
  [("config", false), ("signature-algorithm", false), ("keystore-type", false),
    ("keystore-path", false), ("max-in-memory-keys", false), ("token-lifetime", true),
    ("rust-log", false)]

/-- The settings of a source. -/
def readSettings (s : Source) : Option Settings := do
  let default : TokenSettings := {}
  let algorithm ← s.setting "signature-algorithm" "TESSERA_JWT_SIGNATURE_ALGORITHM" some
    default.algorithm
  let store ← s.setting "keystore-type" "TESSERA_KEYSTORE_TYPE" store? default.store
  let folder ← s.setting "keystore-path" "TESSERA_KEYSTORE_PATH" path? default.folder
  let capacity ← s.setting "max-in-memory-keys" "TESSERA_MAX_IN_MEMORY_KEYS" count?
    default.capacity
  let lifetime ← s.setting "token-lifetime" "TESSERA_TOKEN_LIFETIME" integer? default.lifetime
  return ⟨⟨algorithm, store, folder, capacity, lifetime⟩, ⟨s.find? "rust-log" "TESSERA_RUST_LOG"⟩⟩

/-- The file that replaces all settings. -/
def readSettingsFile (s : Source) : Option (Option String) :=
  s.setting "config" "TESSERA_CONF" (fun path => (path? path).map some) none

/-! ### Commands -/

/-- A command with the words behind it. -/
def readCommand (name : String) (rest : List String) : Option Command := do
  let given ← sortWords (if name = "issue" then [("lifetime", true)] else []) false rest
  match name, given.words with
  | "issue", [principal] =>
    match given.options.lookup "lifetime" with
    | some value => return .issue principal (some (← integer? value))
    | none => return .issue principal none
  | "verify", [token] => return .verify token
  | "inspect", [token] => return .inspect token
  | "renew", [] => return .renew
  | "revoke", [] => return .revoke
  | "info", [] => return .info
  | _, _ => none

/-- What a command line says in an environment. -/
def read (environment : Environment) (args : List String) : Option Arguments := do
  let given ← sortWords globalOptions true args
  let name :: rest := given.words | none
  let command ← readCommand name rest
  let source : Source := ⟨given, environment⟩
  return ⟨← readSettingsFile source, ← readSettings source, command⟩

/-! ### The version -/

/-- Whether a word asks for the version of the program. -/
def isVersionWord (s : String) : Bool :=
  match s.toList with
  | '-' :: 'V' :: _ => true
  | _ => s == "--version"

/-- Whether a command line asks for the version: by a word in front of the command, with
nothing before it but options that are understood. -/
def asksVersion (args : List String) : Bool :=
  let before := args.takeWhile fun s => !isVersionWord s
  match sortWords globalOptions true before with
  | some given =>
    let source : Source := ⟨given, []⟩
    before.length < args.length && given.words.isEmpty &&
      (readSettingsFile source).isSome && (readSettings source).isSome
  | none => false

end Arguments

end TokenAuthority
