import LuaHost.Text.Blank
import LuaHost.Text.Pieces

/-!
# Lines typed on the console

A line is a command if its first word is one of the known ones, and code to be evaluated
otherwise. A line that starts with a blank has an empty first word and asks for nothing.
-/

namespace LuaHost

/-- What a typed line asks for. -/
inductive Command where
  | nothing
  /-- Pass a signal on to the engine. -/
  | signal (name data : String)
  | load (name : String)
  | unloadAll
  | unload (name : String)
  | reload (name : String)
  /-- List the scripts whose name holds a text, or all of them. -/
  | list (filter : Option String) (full : Bool)
  /-- Show the name and the version of the language. -/
  | version
  | evaluate (code : String)
  deriving DecidableEq

namespace Command

/-- A text that may be missing. -/
def optional (text : List Char) : Option String :=
  if text.isEmpty then none else some (String.ofList text)

/-- Read a line from its first word and the rest. `line` is the whole line. -/
def ofWords (line word rest : List Char) : Command :=
  if word.isEmpty then .nothing
  else if word = "/signal".toList then
    let (name, data) := Text.cut (· == ' ') rest
    .signal (String.ofList name) (String.ofList data)
  else if word = "/load".toList then .load (String.ofList rest)
  else if word = "/unload".toList then
    if rest.isEmpty then .unloadAll else .unload (String.ofList rest)
  else if word = "/reload".toList then .reload (String.ofList rest)
  else if word = "/list".toList then .list (optional rest) false
  else if word = "/listfull".toList then .list (optional rest) true
  else if word = "/version".toList then .version
  else .evaluate (String.ofList line)

/-- Read a line. Blanks at its end and around what follows the first word do not count. -/
def ofLine (text : String) : Command :=
  let line := Text.trimEnd text.toList
  let (word, rest) := Text.cut (· == ' ') line
  ofWords line word (Text.trim rest)

end Command

end LuaHost
