import LuaHost.Environment
import LuaHost.FileTree

/-!
# The script directories

Below the home of the engine, `lua` holds the installed scripts and `lua/autoload` links to
those loaded at startup.
-/

namespace LuaHost

/-- The script directories below one home. -/
structure ScriptDirs where
  home : String

namespace ScriptDirs

/-- The directory of installed scripts. -/
def installed (d : ScriptDirs) : String := Path.join d.home "lua"

/-- The directory of scripts loaded at startup. -/
def autoload (d : ScriptDirs) : String := Path.join d.installed "autoload"

/-- Make both directories. -/
def create (d : ScriptDirs) (t : FileTree) : FileTree.Result := t.createDirectories d.autoload

/-- Where the script of a name is: in the autoload directory, else in that of installed scripts,
else in the home; failing these the name itself is the path. A leading tilde is expanded. -/
def search (d : ScriptDirs) (env : Environment) (t : FileTree) (name : String) : String :=
  if name.toList.head? = some '~' then env.expandTilde name
  else
    let candidates := [d.autoload, d.installed, d.home].map (Path.join · name)
    (candidates.find? t.exists?).getD name

/-- Whether a name in the autoload directory is that of a script: a text, not hidden, with the
extension of scripts. -/
def isScriptName (name : String) : Bool :=
  FileName.isText name && name.toList.head? ≠ some '.' && Path.extension? name = some "lua"

/-- The scripts in the autoload directory, sorted by name. -/
def autoloadScripts (d : ScriptDirs) (t : FileTree) : Except OsError (List String) := do
  let names ← t.list d.autoload
  let paths := (FileTree.sortNames (names.filter isScriptName)).map (Path.join d.autoload)
  .ok (paths.filter t.isFile)

/-- Make the autoload entry of a name a link to the installed script. -/
def linkAutoload (d : ScriptDirs) (t : FileTree) (name : String) : FileTree.Result :=
  match t.createDirectories d.autoload with
  | (t, .error e) => (t, .error e)
  | (t, .ok ()) =>
    let path := Path.join d.autoload name
    match if t.hasEntry path then t.remove path else (t, .ok ()) with
    | (t, .error e) => (t, .error e)
    | (t, .ok ()) => t.makeLink (Path.join ".." name) path

/-- Remove the autoload entry of a name; it may be missing. -/
def unlinkAutoload (d : ScriptDirs) (t : FileTree) (name : String) : FileTree.Result :=
  match t.remove (Path.join d.autoload name) with
  | (t, .error .notFound) => (t, .ok ())
  | result => result

end ScriptDirs

end LuaHost
