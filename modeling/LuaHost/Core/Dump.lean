import LuaHost.Core

/-!
# The dump of the engine

The lines that a dump writes to the log: one for the number of scripts, one per script, one for
the engine.
-/

namespace LuaHost.Core

/-- A message with its fields. -/
def logLine (message : String) (fields : List (String × String)) : String :=
  fields.foldl (fun line (name, value) => line ++ " " ++ name ++ "=" ++ value) message

/-- How the script that is running is written. -/
def activeText : Option ScriptId → String
  | none => "None"
  | some id => "Some(ScriptId(" ++ toString id.number ++ "))"

/-- The line of one script. -/
def scriptLine (s : Script) : String :=
  logLine ("[script " ++ s.name ++ "]")
    [("id", s.id.text), ("context", s.context.text), ("filename", s.filename),
      ("author", s.about.author), ("version", s.about.version), ("license", s.about.license),
      ("shutdown_func", s.about.shutdown), ("charset", s.about.charset),
      ("registered", toString s.complete)]

/-- The line of the engine itself. -/
def engineLine (c : Core) : String :=
  logLine "engine state"
    [("active", activeText c.active), ("created", toString c.created),
      ("destroyed", toString c.destroyed),
      ("pending_output", toString c.output.buffer.utf8ByteSize)]

/-- All lines of a dump. -/
def dumpLines (c : Core) : List String :=
  let heading := "***** " ++ engineName ++ " scripts: " ++ toString c.registry.size ++ " *****"
  heading :: c.registry.scripts.map scriptLine ++ [engineLine c]

/-- Write a dump to the log. -/
def dump (c : Core) : Core := { c with log := c.log ++ c.dumpLines.toArray }

end LuaHost.Core
