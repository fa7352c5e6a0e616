import LuaHost.Failure
import LuaHost.Options
import LuaHost.Text.Encoding

/-!
# The configuration file on disk
-/

namespace LuaHost.Options

/-- The configuration file of a home directory, if there is one. -/
def find? (t : FileTree) (home : String) : Option String :=
  let path := Path.join home "script-host.conf"
  if t.exists? path then some path else none

/-- The text of a file. -/
def textOf (t : FileTree) (path : String) : Except OsError String := do
  match Text.decode? (← t.read path) with
  | .ok text => .ok text
  | .error _ => .error .notText

/-- Read a configuration file. -/
def load (env : Environment) (t : FileTree) (path : String) :
    Except Failure (Options × List LineError) :=
  match textOf t path with
  | .ok text => .ok (ofText env text)
  | .error error => .error (.configuration path error)

end LuaHost.Options
