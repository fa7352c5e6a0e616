/-!
# The command line

`[-d<home>] [-f[<file>]] [-e<code>]... [-knqv] [<script>...]`. Flags may share one argument. The
value of a flag is what follows it in its argument, else the next argument; `-f` takes the next
argument only when that is no flag.
-/

namespace LuaHost

/-- How the configuration file is chosen. -/
inductive ConfigChoice where
  /-- The one in the home directory, if there is one. -/
  | search
  /-- None. -/
  | skip
  /-- This file. -/
  | file (path : String)
  deriving DecidableEq

/-- What a command line asks for. -/
structure CommandLine where
  home : Option String
  config : ConfigChoice
  eval : List String
  keepEvaluation : Bool
  noAutoload : Bool
  quiet : Bool
  verbose : Bool
  scripts : List String
  deriving DecidableEq

/-- Why a command line was refused. -/
inductive UsageError where
  | noCode
  | noDirectory
  | unknownFlag (flag : Char)
  deriving DecidableEq

/-- The words in which a command line is refused. -/
def UsageError.message : UsageError → String
  | .noCode => "-e requires a code argument"
  | .noDirectory => "-d requires a directory argument"
  | .unknownFlag flag => "unknown option: -" ++ String.singleton flag

namespace CommandLine

/-- The command line without arguments. -/
def empty : CommandLine :=
  { home := none, config := .search, eval := [], keepEvaluation := false, noAutoload := false,
    quiet := false, verbose := false, scripts := [] }

/-- What one argument is. -/
inductive Argument where
  | script
  | endOfFlags
  | flags (cluster : List Char)

/-- Tell flags from scripts; a lone dash is a script. -/
def Argument.ofText (text : String) : Argument :=
  match text.toList with
  | ['-', '-'] => .endOfFlags
  | '-' :: c :: cs => .flags (c :: cs)
  | _ => .script

/-- Whether an argument starts with a dash. -/
def startsWithDash (text : String) : Bool := text.toList.head? = some '-'

/-- Read the flags that share one argument. The result tells whether the next argument was
taken as the value of the last flag. -/
def readFlags (c : CommandLine) (next : Option String) :
    List Char → Except UsageError (CommandLine × Bool)
  | [] => .ok (c, false)
  | flag :: attached =>
    let (value, taken) :=
      if attached.isEmpty then (next, true) else (some (String.ofList attached), false)
    match flag with
    | 'k' => readFlags { c with keepEvaluation := true } next attached
    | 'n' => readFlags { c with noAutoload := true } next attached
    | 'q' => readFlags { c with quiet := true } next attached
    | 'v' => readFlags { c with verbose := true } next attached
    | 'f' =>
      if taken && (next.all startsWithDash) then .ok ({ c with config := .skip }, false)
      else match value with
        | some path => .ok ({ c with config := .file path }, taken)
        | none => .ok ({ c with config := .skip }, false)
    | 'e' =>
      match value with
      | some code => .ok ({ c with eval := c.eval ++ [code] }, taken)
      | none => .error .noCode
    | 'd' =>
      match value with
      | some dir => .ok ({ c with home := some dir }, taken)
      | none => .error .noDirectory
    | other => .error (.unknownFlag other)

/-- Read the arguments one after the other. -/
def readArguments (c : CommandLine) : List String → Except UsageError CommandLine
  | [] => .ok c
  | argument :: rest =>
    match Argument.ofText argument with
    | .script => readArguments { c with scripts := c.scripts ++ [argument] } rest
    | .endOfFlags => .ok { c with scripts := c.scripts ++ rest }
    | .flags cluster =>
      match readFlags c rest.head? cluster with
      | .error e => .error e
      | .ok (c, taken) =>
        match taken, rest with
        | true, _ :: rest => readArguments c rest
        | _, rest => readArguments c rest

/-- Read a command line. -/
def parse (arguments : List String) : Except UsageError CommandLine :=
  readArguments empty arguments

end CommandLine

end LuaHost
