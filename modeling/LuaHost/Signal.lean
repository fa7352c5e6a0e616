import LuaHost.Request

/-!
# Signals

The signals that the engine sends on the bus of the host, and those it acts upon. Script
signals carry the name of the language in front, so that several engines can share a bus.
-/

namespace LuaHost

/-- A signal the engine sends or listens to. -/
inductive Signal where
  /-- Sent after a script was loaded, with its file name. -/
  | scriptLoaded
  /-- Sent after a script was unloaded, with its file name. -/
  | scriptUnloaded
  /-- Asks for files to be installed. -/
  | scriptInstall
  /-- Asks for scripts to be removed. -/
  | scriptRemove
  /-- Asks for scripts to be linked for autoload, or unlinked. -/
  | scriptAutoload
  /-- Asks for a dump of the engine to the log. -/
  | debugDump
  deriving DecidableEq

namespace Signal

/-- All signals. -/
def all : List Signal :=
  [scriptLoaded, scriptUnloaded, scriptInstall, scriptRemove, scriptAutoload, debugDump]

/-- The name a signal has on the bus. -/
def name : Signal → String
  | scriptLoaded => "lua_script_loaded"
  | scriptUnloaded => "lua_script_unloaded"
  | scriptInstall => "lua_script_install"
  | scriptRemove => "lua_script_remove"
  | scriptAutoload => "lua_script_autoload"
  | debugDump => "debug_dump"

/-- The signal with a name. -/
def ofName? (name : String) : Option Signal := all.find? (·.name == name)

/-- The request a signal stands for. -/
def request? : Signal → Option RequestKind
  | scriptInstall => some .install
  | scriptRemove => some .remove
  | scriptAutoload => some .autoload
  | _ => none

/-- A signal is found under its name. -/
@[simp] theorem ofName?_name (s : Signal) : ofName? s.name = some s := by
  cases s <;> decide

end Signal

end LuaHost
