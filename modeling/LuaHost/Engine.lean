import LuaHost.Core.Run
import LuaHost.Failure
import LuaHost.ScriptDirs

/-!
# The engine

An engine hosts scripts for one host application. To the state that running scripts reach it
adds the interpreter contexts, the scratch script that evaluations use, and the file tree that
holds the script directories.
-/

namespace LuaHost

/-- An engine. -/
structure Engine where
  core : Core
  /-- The interpreter state of every context that is not destroyed. -/
  contexts : List (ContextId × Lua.Heap)
  /-- The scratch script, while it is kept loaded. -/
  scratch : Option ScriptId
  /-- The engine was closed. -/
  closed : Bool
  files : FileTree
  environment : Environment
  /-- The number of steps that one run of a script may take. -/
  budget : Nat

namespace Engine

/-- A number of steps that no script of a user comes near to. -/
def defaultBudget : Nat := 1000000000

/-- An engine in which nothing is loaded yet. -/
def new (options : Options) (license : String) (files : FileTree) (environment : Environment)
    (budget : Nat) : Engine :=
  { core := .new options license, contexts := [], scratch := none, closed := false, files,
    environment, budget }

/-- Change the state that scripts reach. -/
def updateCore (e : Engine) (f : Core → Core) : Engine := { e with core := f e.core }

/-- The name and version of the language. -/
def interpreter : String := "Lua 5.4"

/-- Set the quiet mode. -/
def setQuiet (e : Engine) (quiet : Bool) : Engine := e.updateCore fun c => { c with quiet }

/-- Run an operation in a quiet mode of its own. -/
def withQuiet {α : Type} (e : Engine) (quiet : Bool) (operation : Engine → Engine × α) :
    Engine × α :=
  let (after, result) := operation (e.setQuiet quiet)
  (after.setQuiet e.core.quiet, result)

/-- Set whether the scratch script is kept between evaluations. -/
def setKeepEvaluation (e : Engine) (keepEvaluation : Bool) : Engine :=
  e.updateCore fun c => { c with options := { c.options with keepEvaluation } }

/-- Set whether licenses are checked. -/
def setCheckLicense (e : Engine) (checkLicense : Bool) : Engine :=
  e.updateCore fun c => { c with options := { c.options with checkLicense } }

/-- Set the time. -/
def setClock (e : Engine) (clock : Nat) : Engine := e.updateCore fun c => { c with clock }

/-- Take the events that were sent to the host since they were last taken. -/
def takeEvents (e : Engine) : Array Event × Engine :=
  (e.core.events, e.updateCore fun c => { c with events := #[] })

/-- Take the lines that were written to the log since they were last taken. -/
def takeLog (e : Engine) : Array String × Engine :=
  (e.core.log, e.updateCore fun c => { c with log := #[] })

/-- The script directories. -/
def dirs (e : Engine) : ScriptDirs := ⟨e.core.options.home⟩

/-- Where a script of a name lives. -/
def search (e : Engine) (name : String) : String := e.dirs.search e.environment e.files name

/-- The loaded scripts, oldest first. -/
def scripts (e : Engine) : List Script := e.core.registry.scripts

/-- The script with a number. -/
def script? (e : Engine) (id : ScriptId) : Option Script := e.core.registry.get? id

/-- The number of the script with a name. -/
def find? (e : Engine) (name : String) : Option ScriptId := e.core.registry.find? name

/-- Ask for a file to be installed or removed, or for a script to be linked. The batch runs when
the delay is over. -/
def request (e : Engine) (kind : RequestKind) (item : String) : Engine :=
  e.updateCore (·.request kind item)

/-- Take a signal from the bus of the host; tells whether it was meant for this engine. -/
def handleSignal (e : Engine) (name data : String) : Engine × Bool :=
  match e.core.handleSignal? name data with
  | some core => ({ e with core }, true)
  | none => (e, false)

/-- Write a dump to the log. -/
def dump (e : Engine) : Engine := e.updateCore Core.dump

end Engine

end LuaHost
