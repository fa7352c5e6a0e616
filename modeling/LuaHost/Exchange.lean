import LuaHost.HostTable
import LuaHost.Lua.Heap
import LuaHost.Text.Encoding

/-!
# Values exchanged with scripts

How texts and host tables become values of a script, and what the host takes over from a
script's table: the fields under string keys, with strings read as texts or as handles and
everything else as null.
-/

namespace LuaHost.Exchange

open Lua (Value Table)

/-- The text of a string value; other values have none. -/
def text? : Value → Option String
  | .str s => some (Text.decode s)
  | _ => none

/-- The value that a cell becomes; a null becomes none. -/
def ofCell : Cell → Option Value
  | .text s => some (.text s)
  | .handle h => some (.text h.text)
  | .null => none

/-- The table of a script that holds the cells of a host table under their keys. -/
def ofHostTable (t : HostTable) : Table :=
  ⟨t.entries.filterMap fun (key, cell) => (ofCell cell).map (Value.text key, ·), none⟩

/-- The cell that a value becomes in a host table with cells of a kind. -/
def toCell (kind : ItemKind) (v : Value) : Cell :=
  match text? v with
  | none => .null
  | some s =>
    match kind with
    | .text => .text s
    | .handle => ((Handle.parse? s).map Cell.handle).getD .null

/-- Take one field over into a host table; a key that is no string is skipped. -/
def takeField (t : HostTable) (field : Value × Value) : HostTable :=
  match text? field.1 with
  | none => t
  | some key => t.set key (toCell t.cellKind field.2)

/-- The host table that takes the fields of a script's table over. -/
def toHostTable (table : Table) (keyKind cellKind : ItemKind) : HostTable :=
  table.fields.foldl takeField (.empty keyKind cellKind)

end LuaHost.Exchange
