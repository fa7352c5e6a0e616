import LuaHost.Environment
import LuaHost.Options.Words

/-!
# Options and the configuration file

A configuration file is a list of lines `/set NAME=VALUE` or `/set NAME VALUE`. Comments and
other directives are skipped. A line that cannot be obeyed is reported with its number and
changes no option.
-/

namespace LuaHost

/-- The options of the engine. -/
structure Options where
  /-- The directory that holds the script directories. -/
  home : String
  /-- Warn when the license of a script is not that of the host. -/
  checkLicense : Bool
  /-- Keep the scratch script loaded between evaluations. -/
  keepEvaluation : Bool
  /-- From level 2 on, messages are shown in quiet mode too. -/
  debug : Nat
  deriving DecidableEq

/-- Why a `/set` line was not obeyed. -/
inductive SettingError where
  | noArgument
  | noValue (name : String)
  | emptyName
  | notBoolean (value : String)
  | emptyHome
  | notDebugLevel (value : String)
  | unknownOption (name : String)
  deriving DecidableEq

/-- The words in which a failed setting is reported by the option itself. -/
def SettingError.reason : SettingError → String
  | .noArgument => "requires an argument"
  | .noValue name => "missing value for '" ++ name ++ "'"
  | .emptyName => "option name cannot be empty"
  | .notBoolean value => "invalid boolean value '" ++ value ++ "'"
  | .emptyHome => "home cannot be empty"
  | .notDebugLevel value => "invalid debug level '" ++ value ++ "' (0-3)"
  | .unknownOption name => "unknown option '" ++ name ++ "'"

/-- The words in which a failed line is reported. -/
def SettingError.message (e : SettingError) : String := "/set: " ++ e.reason

namespace Options

/-- The options in force when nothing is set. -/
def default (env : Environment) : Options := ⟨env.defaultHome, false, false, 0⟩

/-- Read a truth value; letter case does not matter. -/
def parseBool (value : String) : Except SettingError Bool :=
  let word := String.ofList (value.toList.map Char.toLower)
  if word ∈ ["on", "true", "yes", "1"] then .ok true
  else if word ∈ ["off", "false", "no", "0"] then .ok false
  else .error (.notBoolean value)

/-- The value of a run of decimal digits that follow digits of value `acc`. -/
def decimal? (acc : Nat) : List Char → Option Nat
  | [] => some acc
  | c :: cs => if '0' ≤ c ∧ c ≤ '9' then decimal? (acc * 10 + (c.toNat - 48)) cs else none

/-- Read a debug level, from 0 to 3; one plus sign may precede the digits. -/
def parseDebug (value : String) : Except SettingError Nat :=
  let digits := match value.toList with
    | '+' :: cs => cs
    | cs => cs
  match (if digits.isEmpty then none else decimal? 0 digits) with
  | some n => if n ≤ 3 then .ok n else .error (.notDebugLevel value)
  | none => .error (.notDebugLevel value)

/-- Set one option by name. -/
def set (env : Environment) (o : Options) (name value : String) : Except SettingError Options :=
  if name = "look.check_license" then
    (parseBool value).map fun b => { o with checkLicense := b }
  else if name = "look.eval_keep_context" then
    (parseBool value).map fun b => { o with keepEvaluation := b }
  else if name = "home" then
    if value.isEmpty then .error .emptyHome else .ok { o with home := env.expandTilde value }
  else if name = "debug" then
    (parseDebug value).map fun n => { o with debug := n }
  else .error (.unknownOption name)

/-- The option name and the value that the words of a `/set` line give. -/
def assignment : List (List Char) → Except SettingError (List Char × List Char)
  | [] => .error .noArgument
  | first :: rest =>
    match Text.cut? (· == '=') first with
    | some (name, value) => if name.isEmpty then .error .emptyName else .ok (name, value)
    | none =>
      if rest.isEmpty then .error (.noValue (String.ofList first))
      else if first.isEmpty then .error .emptyName
      else .ok (first, [' '].intercalate rest)

/-- Obey the words of a `/set` line. -/
def assign (env : Environment) (o : Options) (words : List (List Char)) :
    Except SettingError Options := do
  let (name, value) ← assignment words
  set env o (String.ofList name) (String.ofList value)

/-- What one line of a configuration file says. -/
inductive Line where
  | skipped
  | setting (words : List (List Char))
  deriving DecidableEq

/-- Read one line: comments, other text and other directives are skipped. -/
def Line.ofChars (raw : List Char) : Line :=
  match Text.trim raw with
  | '/' :: rest =>
    let (command, arguments) := Text.cut Text.isWordBreak rest
    if command = "set".toList then .setting (Words.ofChars (Text.trim arguments)) else .skipped
  | _ => .skipped

/-- A line that could not be obeyed. -/
structure LineError where
  line : Nat
  error : SettingError
  deriving DecidableEq

/-- The words in which a failed line is shown to the user. -/
def LineError.display (e : LineError) : String :=
  "line " ++ toString e.line ++ ": " ++ e.error.message

/-- Obey one line with its number, or report it. -/
def obey (env : Environment) (state : Options × List LineError) (numbered : List Char × Nat) :
    Options × List LineError :=
  match Line.ofChars numbered.1 with
  | .skipped => state
  | .setting words =>
    match assign env state.1 words with
    | .ok o => (o, state.2)
    | .error e => (state.1, state.2 ++ [⟨numbered.2, e⟩])

/-- Read a configuration text on top of the defaults, with the lines that could not be obeyed. -/
def ofText (env : Environment) (text : String) : Options × List LineError :=
  ((Text.lines text.toList).zipIdx 1).foldl (obey env) (default env, [])

end Options

end LuaHost
