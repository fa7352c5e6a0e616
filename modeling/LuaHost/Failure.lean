import LuaHost.FileTree

/-!
# Failures of the engine

Why an operation of the engine did not do what it was asked for. Most failures are also printed
for the user when they happen.
-/

namespace LuaHost

/-- Why an operation failed. -/
inductive Failure where
  /-- A script file could not be read. -/
  | file (path : String) (error : OsError)
  /-- A source could not be compiled, or running it raised the message. -/
  | source (filename message : String)
  /-- A source ran to its end without a successful registration. -/
  | unregistered (filename : String)
  /-- No script with this name or number is loaded. -/
  | notLoaded (script : String)
  /-- The scratch script could not be loaded. -/
  | evaluation (cause : Failure)
  /-- The configuration file could not be read. -/
  | configuration (path : String) (error : OsError)
  deriving DecidableEq

/-- The words of a failure. -/
def Failure.message : Failure → String
  | .file path error => path ++ ": " ++ error.message
  | .source filename message => "error in script \"" ++ filename ++ "\": " ++ message
  | .unregistered filename =>
    "function \"register\" not found (or failed) in file \"" ++ filename ++ "\""
  | .notLoaded script => "script \"" ++ script ++ "\" not loaded"
  | .evaluation cause => "unable to evaluate code: " ++ cause.message
  | .configuration path error => "config: " ++ path ++ ": " ++ error.message

end LuaHost
