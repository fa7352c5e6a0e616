import LuaHost.Text.Encoding

/-!
# Names of chunks

A chunk is named after a file (`@` in front), by a given name (`=` in front) or by its own text.
In messages the name is shown in at most 59 bytes.
-/

namespace LuaHost.Lua

/-- The bytes of an ASCII text. -/
def ascii (s : String) : List UInt8 := s.toList.map fun c => c.toNat.toUInt8

namespace ChunkName

/-- The greatest number of bytes a shown name has, with its end mark. -/
def limit : Nat := 60

/-- A file name, cut at its front when it is long. -/
def ofFile (name : List UInt8) : List UInt8 :=
  if name.length + 1 ≤ limit then name
  else ascii "..." ++ name.drop (name.length - (limit - 4))

/-- A given name, cut at its end when it is long. -/
def ofLabel (name : List UInt8) : List UInt8 := name.take (limit - 1)

/-- The first line of a text, cut at its end when it is long. -/
def ofText (text : List UInt8) : List UInt8 :=
  let room := limit - 15
  let first := text.takeWhile (· ≠ 10)
  let shown :=
    if text.length < room ∧ first.length = text.length then text
    else first.take room ++ ascii "..."
  ascii "[string \"" ++ shown ++ ascii "\"]"

/-- How the name of a chunk is shown. -/
def shown : List UInt8 → List UInt8
  | 64 :: name => ofFile name
  | 61 :: name => ofLabel name
  | text => ofText text

end ChunkName

end LuaHost.Lua
