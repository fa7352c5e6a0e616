import LuaHost.Path

/-!
# The user's directories

Where the home directory and the data directory of the user are, and how a leading tilde and
the default place of the script directories follow from them.
-/

namespace LuaHost

/-- What the surroundings of the program say about the user. -/
structure Environment where
  /-- The home directory in the environment. -/
  home : String
  /-- The data directory in the environment. -/
  dataHome : Option String
  /-- The home directory of the account, used when the environment has an empty one. -/
  accountHome : String

namespace Environment

/-- Replace a leading tilde by the home directory. -/
def expandTilde (env : Environment) (path : String) : String :=
  match path.toList with
  | '~' :: rest => env.home ++ String.ofList rest
  | _ => path

/-- The data directory of the user; only an absolute path in the environment counts. -/
def dataDirectory (env : Environment) : String :=
  match env.dataHome.filter Path.isAbsolute with
  | some dir => dir
  | none => Path.join (if env.home.isEmpty then env.accountHome else env.home) ".local/share"

/-- The script directories used when no others are given. -/
def defaultHome (env : Environment) : String := Path.join env.dataDirectory "script-host"

end Environment

end LuaHost
