import LuaHost.Console

/-!
# The console and the disk

An engine works on a file tree of its own. Before each operation of a console the tree is filled
with what the disk holds under the paths that the operation can reach; afterwards the
differences are what is to be done on the disk.
-/

namespace LuaHost

namespace FileTree

/-- Something to be done on a disk to keep up with a file tree. -/
inductive Change where
  | remove (loc : Location)
  | makeDirectory (loc : Location)
  | write (loc : Location) (content : ByteArray)
  /-- Make a link; `content` is that of the file it leads to. -/
  | link (loc : Location) (target : String) (content : ByteArray)
  deriving DecidableEq

/-- A location as an absolute path. -/
def absolute (loc : Location) : String := "/" ++ "/".intercalate loc

/-- What has to be made for an entry that is new. -/
def creation (t : FileTree) (loc : Location) : Entry → Change
  | .directory => .makeDirectory loc
  | .file content => .write loc content
  | .link target => .link loc target ((t.read (absolute loc)).toOption.getD .empty)

/-- What has to be done to get from one tree to another. Directories are never removed. -/
def changes (before after : FileTree) : List Change :=
  let gone := before.entries.filter fun (loc, e) => e ≠ .directory ∧ after.get? loc ≠ some e
  let new := after.entries.filter fun (loc, e) => before.get? loc ≠ some e
  let (directories, others) := new.partition fun (_, e) => e = .directory
  gone.map (fun (loc, _) => .remove loc) ++
    (directories ++ others).map fun (loc, e) => after.creation loc e

end FileTree

namespace Console

/-- The paths under which a script of a name is looked for. -/
def pathsOf (options : Options) (env : Environment) (name : String) : List String :=
  let dirs : ScriptDirs := ⟨options.home⟩
  let base := (Path.fileName? name).getD name
  name :: env.expandTilde name ::
    ([dirs.autoload, dirs.installed, dirs.home].flatMap fun dir =>
      [Path.join dir name, Path.join dir base])

/-- The names of scripts that a console may work on by itself: those of the loaded scripts, and
those that requests wait for. -/
def names (c : Console) : List String :=
  c.engine.scripts.map Script.filename ++
    RequestKind.all.flatMap fun kind => (Batch.ofText (c.engine.core.requests.pending kind)).names

/-- The names of the scripts that a typed line asks to be loaded. -/
def namesIn (line : ByteArray) : List String :=
  match Command.ofLine (Text.decode line) with
  | .load name => [name]
  | _ => []

/-- The paths that an operation on some names can reach. -/
def reach (c : Console) (names : List String) : List String :=
  c.engine.dirs.autoload ::
    (names ++ c.names).flatMap (pathsOf c.engine.core.options c.engine.environment)

/-- The paths that the start of a console can reach, when the options are known. -/
def startReach (options : Options) (env : Environment) (line : CommandLine) : List String :=
  let names := line.scripts ++ line.eval.flatMap fun code => namesIn (Text.encode code)
  (ScriptDirs.mk options.home).autoload :: names.flatMap (pathsOf options env)

/-- The paths of the configuration files that a command line can mean. -/
def configurationPaths (env : Environment) (line : CommandLine) : List String :=
  match line.config with
  | .skip => []
  | .file path => [path]
  | .search => [Path.join (line.home.getD env.defaultHome) "script-host.conf"]

end Console

end LuaHost
