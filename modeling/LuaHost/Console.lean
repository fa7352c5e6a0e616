import LuaHost.CommandLine
import LuaHost.Console.Command
import LuaHost.Engine.Batch
import LuaHost.Engine.Evaluate
import LuaHost.Engine.Listing
import LuaHost.Options.File

/-!
# The console

The engine as a program: it is set up from a command line, obeys typed lines until the input
ends, and runs what was asked for when the timers are due. Everything the host is told is
printed.
-/

namespace LuaHost

/-- The name of the program in front of its own messages. -/
def programName : String := "script-host"

/-- A message of the program. -/
def programMessage (text : String) : String := programName ++ ": " ++ text

/-- How a command line is to be written. -/
def usage : String :=
  "Usage: " ++ programName ++ " [-d<home>] [-f[<file>]] [-e<code>]... [-knqv] [<script>...]"

/-- The lines that refuse a command line. -/
def UsageError.lines (e : UsageError) : List String := [programMessage e.message, usage]

/-- The line that an event is printed as; signals are not printed. -/
def Event.line? : Event → Option String
  | .print none line => some line
  | .print (some buffer) line => some ("[" ++ buffer.text ++ "] " ++ line)
  | .command buffer text => some ("[" ++ buffer.text ++ "] > " ++ text)
  | .signal _ _ | .callbacks _ => none

/-- A console: its engine and what it has printed. -/
structure Console where
  engine : Engine
  /-- What was written to the standard output. -/
  output : String
  /-- What was written to the standard error. -/
  errors : String
  /-- The input has not ended. -/
  isOpen : Bool

namespace Console

/-- The options that a command line and its configuration file give, with the messages about that
file. -/
def configure (env : Environment) (files : FileTree) (line : CommandLine) :
    Options × List String :=
  let defaults := Options.default env
  let home := line.home.getD defaults.home
  let path := match line.config with
    | .skip => none
    | .file path => some path
    | .search => Options.find? files home
  let (options, messages) := match path with
    | none => ({ defaults with home }, [])
    | some path =>
      match Options.load env files path with
      | .ok (options, errors) =>
        (options, errors.map fun (e : Options.LineError) =>
          programMessage (path ++ ": " ++ e.display))
      | .error failure => (defaults, [programMessage ("warning: " ++ failure.message)])
  ({ options with
      home := line.home.getD options.home
      keepEvaluation := options.keepEvaluation || line.keepEvaluation }, messages)

/-- Print a line. -/
def print (c : Console) (line : String) : Console := { c with output := c.output ++ line ++ "\n" }

/-- Print a message of the program. -/
def complain (c : Console) (message : String) : Console :=
  { c with errors := c.errors ++ message ++ "\n" }

/-- Print what the engine has sent to the host. -/
def showEvents (c : Console) : Console :=
  let (events, engine) := c.engine.takeEvents
  (events.toList.filterMap Event.line?).foldl print { c with engine }

/-- Work on the engine and print what comes of it. -/
def updateEngine (c : Console) (f : Engine → Engine) : Console :=
  { c with engine := f c.engine }.showEvents

/-- Do what a typed line asks for. -/
def perform (c : Console) : Command → Console
  | .nothing => c
  | .signal name data =>
    let (engine, handled) := c.engine.handleSignal name data
    let c := { c with engine }
    if handled then c else c.complain (programMessage ("signal \"" ++ name ++ "\" not handled"))
  | .load name => c.updateEngine fun e => (e.loadNamed name).1
  | .unloadAll => c.updateEngine Engine.unloadAll
  | .unload name => c.updateEngine fun e => (e.unloadNamed name).1
  | .reload name => c.updateEngine fun e => (e.reload name).1
  | .list filter full => c.updateEngine fun e => e.displayList filter full
  | .version => c.updateEngine Engine.displayInterpreter
  | .evaluate code =>
    let (engine, text) := c.engine.evaluateToText code
    let c := { c with engine }.showEvents
    match text with
    | some text => if text.isEmpty then c else c.print text
    | none => c

/-- Do what a typed line asks for. -/
def handleLine (c : Console) (line : String) : Console := c.perform (Command.ofLine line)

/-- Load the scripts that a console starts with: those of the autoload directory, and those of the
command line. -/
def loadScripts (line : CommandLine) (e : Engine) : Engine × Unit :=
  let e := if line.noAutoload then e else e.autoload.1
  (line.scripts.foldl (fun e name => (e.loadNamed name).1) e, ())

/-- Start a console from a command line: load the scripts, then obey the code of the command
line. -/
def start (env : Environment) (files : FileTree) (budget : Nat) (line : CommandLine) : Console :=
  let (options, messages) := configure env files line
  let engine := Engine.new options "GPL3" files env budget
  let c : Console := messages.foldl complain ⟨engine, "", "", true⟩
  let c := c.updateEngine fun e => ((e.withQuiet line.quiet (loadScripts line)).1).displayNames
  line.eval.foldl handleLine c

/-- Take a line from the input, with its line feed if it has one. A line that is no text ends the
input. -/
def readLine (c : Console) (raw : ByteArray) : Console :=
  if !c.isOpen then c
  else match Text.decode? raw with
    | .error fault =>
      { c.complain (programMessage ("stdin: " ++ fault.message)) with isOpen := false }
    | .ok text => c.handleLine text

/-- Run what is due at a time. -/
def runTimers (c : Console) (now : Nat) : Console :=
  if c.isOpen then c.updateEngine fun e => (e.runTimers now).1 else c

/-- End a console: everything is unloaded. -/
def close (c : Console) : Console := { c.updateEngine Engine.close with isOpen := false }

/-- Take what was printed since it was last taken: the standard output and the standard error. -/
def takePrinted (c : Console) : (String × String) × Console :=
  ((c.output, c.errors), { c with output := "", errors := "" })

end Console

end LuaHost
