import LuaHost.Engine

/-!
# Listings

Lines about the loaded scripts for the user.
-/

namespace LuaHost.Engine

/-- Whether characters hold others side by side. -/
def holdsChars (part : List Char) : List Char → Bool
  | [] => part.isEmpty
  | c :: cs => part.isPrefixOf (c :: cs) || holdsChars part cs

/-- Whether a text holds another one. -/
def holds (s part : String) : Bool := holdsChars part.toList s.toList

/-- The lines about one script. -/
def scriptLines (full : Bool) (s : Script) : List String :=
  let heading := "  " ++ s.name ++ " v" ++ s.about.version ++ " - " ++ s.about.description
  let details :=
    ["    file: " ++ s.filename,
      "    written by \"" ++ s.about.author ++ "\", license: " ++ s.about.license]
  if full then heading :: details else [heading]

/-- The lines about the scripts whose name holds a text, or about all scripts. -/
def listing (e : Engine) (filter : Option String) (full : Bool) : List String :=
  let shown := e.scripts.filter fun s => filter.all (holds s.name)
  let lines := if shown.isEmpty then ["  (none)"] else shown.flatMap (scriptLines full)
  "" :: (engineName ++ " scripts loaded:") :: lines

/-- Print the listing of scripts. -/
def displayList (e : Engine) (filter : Option String) (full : Bool) : Engine :=
  (e.listing filter full).foldl (fun e line => e.updateCore (·.print line)) e

/-- Print the names of the loaded scripts on one line, if there are any. -/
def displayNames (e : Engine) : Engine :=
  let names := e.scripts.map Script.name
  if names.isEmpty then e
  else e.updateCore (·.print (engineName ++ " scripts loaded: " ++ ", ".intercalate names))

/-- Print the name and the version of the language. -/
def displayInterpreter (e : Engine) : Engine := e.updateCore (·.say interpreter)

end LuaHost.Engine
