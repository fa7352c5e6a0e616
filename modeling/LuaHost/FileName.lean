import LuaHost.Text.Encoding

/-!
# File names

To the operating system a file name is a sequence of bytes other than a slash and a NUL, which need
not be UTF-8. In a file tree a name stands as the text that its bytes are. A name that is no text
stands as a NUL followed by its bytes, each as the character of its number; so different names stay
different, and no path that is a text leads to such a name.
-/

namespace LuaHost.FileName

/-- How the name with some bytes stands in a file tree. -/
def ofBytes (b : ByteArray) : String :=
  match String.fromUTF8? b with
  | some s => s
  | none => String.ofList ('\x00' :: b.data.toList.map fun byte => Char.ofNat byte.toNat)

/-- The bytes of a name in a file tree. -/
def bytes (name : String) : List UInt8 :=
  match name.toList with
  | '\x00' :: raw => raw.map fun c => UInt8.ofNat c.toNat
  | _ => (Text.encode name).data.toList

/-- Whether a name in a file tree is a text. -/
def isText (name : String) : Bool := name.toList.head? ≠ some '\x00'

end LuaHost.FileName
