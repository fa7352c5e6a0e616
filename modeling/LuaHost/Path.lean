import LuaHost.Text.Pieces

/-!
# Paths as text

A path is a text; its components are what it says once repeated slashes, inner dots and a slash
at its end are left out. Joining a path onto a base keeps the texts of both, and an absolute
path stands for itself.
-/

namespace LuaHost.Path

/-- One component of a path. -/
inductive Component where
  /-- The root, in front of an absolute path. -/
  | root
  /-- A dot in front of a relative path. -/
  | here
  /-- Two dots. -/
  | up
  /-- A file name. -/
  | name (s : String)
  deriving DecidableEq

/-- A path that starts at the root. -/
def isAbsolute (path : String) : Bool := path.toList.head? = some '/'

/-- The texts between the slashes of a path, without empty ones. -/
def steps (path : String) : List String :=
  ((Text.pieces (· == '/') path.toList).filter (! ·.isEmpty)).map String.ofList

/-- A path that ends in a slash names a directory. -/
def endsInSlash (path : String) : Bool := path.toList.getLast? = some '/'

/-- A path without the slashes at its end; a path of slashes only keeps the first. -/
def withoutSlashes (path : String) : String :=
  let rest := (path.toList.reverse.dropWhile (· = '/')).reverse
  String.ofList (if rest.isEmpty then path.toList.take 1 else rest)

/-- The component a step stands for after the first one; a dot stands for none. -/
def component? (step : String) : Option Component :=
  if step = "." then none else if step = ".." then some .up else some (.name step)

/-- The components of a path. -/
def components (path : String) : List Component :=
  if isAbsolute path then .root :: (steps path).filterMap component?
  else match steps path with
    | "." :: rest => .here :: rest.filterMap component?
    | rest => rest.filterMap component?

/-- The step a component is written as. -/
def Component.step? : Component → Option String
  | .root => none
  | .here => some "."
  | .up => some ".."
  | .name s => some s

/-- Put a path after a base directory. -/
def join (base path : String) : String :=
  if isAbsolute path || base.isEmpty then path
  else if endsInSlash base then base ++ path
  else base ++ "/" ++ path

/-- The file name a path ends in, if it ends in one. -/
def fileName? (path : String) : Option String :=
  match (components path).getLast? with
  | some (.name s) => some s
  | _ => none

/-- What follows the last dot of a file name, unless the name starts with that dot. -/
def extension? (name : String) : Option String :=
  let after := name.toList.reverse.takeWhile (· != '.')
  match name.toList.reverse.dropWhile (· != '.') with
  | [] => none
  | [_] => none
  | _ :: _ :: _ => some (String.ofList after.reverse)

/-- Two texts that name the same path. -/
def same (a b : String) : Bool := components a = components b

end LuaHost.Path
