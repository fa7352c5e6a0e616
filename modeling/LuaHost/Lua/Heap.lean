import LuaHost.Lua.Syntax
import LuaHost.Lua.Value

/-!
# The heap of an interpreter state

Tables keep their fields in the order in which the keys were first set. The heap also holds the
functions, the variables they share, and the tables that were made finalizable, the last one
first.
-/

namespace LuaHost.Lua

/-- A table: its fields, of which none holds `nil`, and its metatable. -/
structure Table where
  fields : List (Value × Value)
  metatable : Option TableRef

/-- A function with the variables it keeps hold of. -/
structure Closure where
  body : Body
  captured : List (Name × VariableRef)
  /-- The shown name of the chunk that the function stands in. -/
  chunk : List UInt8

/-- The heap. -/
structure Heap where
  tables : Array Table
  closures : Array Closure
  /-- The values of the variables. -/
  shared : Array Value
  /-- The tables whose finalizer is still to run, the one marked last first. -/
  finalizable : List TableRef
  globals : TableRef
  /-- The metatable of strings. -/
  stringMeta : TableRef
  /-- Tables that stay alive until the state is closed, whatever scripts do. -/
  library : List TableRef

namespace Table

/-- A table without fields. -/
def empty : Table := ⟨[], none⟩

/-- The value under a key, `nil` if there is none. The key is in the form of `Value.key`. -/
def get (t : Table) (k : Value) : Value := (t.fields.lookup k).getD .nil

/-- Replace the value under a key in fields that hold the key. -/
def replace (k v : Value) : List (Value × Value) → List (Value × Value)
  | [] => []
  | (k', v') :: rest => if k' = k then (k, v) :: rest else (k', v') :: replace k v rest

/-- Remove the field of a key. -/
def remove (k : Value) : List (Value × Value) → List (Value × Value)
  | [] => []
  | (k', v') :: rest => if k' = k then rest else (k', v') :: remove k rest

/-- Set the value under a key; `nil` removes the field. -/
def set (t : Table) (k v : Value) : Table :=
  if v = .nil then { t with fields := remove k t.fields }
  else if (t.fields.lookup k).isSome then { t with fields := replace k v t.fields }
  else { t with fields := t.fields ++ [(k, v)] }

/-- Count on from `n` while the next integer has a value. -/
def borderFrom (t : Table) (n : Nat) : Nat → Nat
  | 0 => n
  | fuel + 1 =>
    if t.get (.int (Int64.ofNat (n + 1))) = .nil then n else t.borderFrom (n + 1) fuel

/-- The length of a table: the first integer whose successor has no value. -/
def border (t : Table) : Nat := t.borderFrom 0 t.fields.length

/-- The field after the one of a key, or the first field; `none` when the key has no field. -/
def next? (t : Table) (k : Value) : Option (Option (Value × Value)) :=
  if k = .nil then some t.fields.head?
  else match t.fields.dropWhile (·.1 ≠ k) with
    | [] => none
    | _ :: rest => some rest.head?

end Table

namespace Heap

/-- The table a reference names. -/
def table (h : Heap) (r : TableRef) : Table := (h.tables[r.index]?).getD .empty

/-- The function a reference names. -/
def closure? (h : Heap) (r : ClosureRef) : Option Closure := h.closures[r.index]?

/-- The value of a variable. -/
def valueOf (h : Heap) (r : VariableRef) : Value := (h.shared[r.index]?).getD .nil

/-- Store a new table. -/
def newTable (h : Heap) (t : Table) : TableRef × Heap :=
  (⟨h.tables.size⟩, { h with tables := h.tables.push t })

/-- Store a new function. -/
def newClosure (h : Heap) (c : Closure) : ClosureRef × Heap :=
  (⟨h.closures.size⟩, { h with closures := h.closures.push c })

/-- Store a new variable. -/
def newVariable (h : Heap) (v : Value) : VariableRef × Heap :=
  (⟨h.shared.size⟩, { h with shared := h.shared.push v })

/-- Change a table. -/
def modifyTable (h : Heap) (r : TableRef) (f : Table → Table) : Heap :=
  { h with tables := h.tables.modify r.index f }

/-- Set a field without metamethods. -/
def rawSet (h : Heap) (r : TableRef) (k v : Value) : Heap :=
  h.modifyTable r (·.set k.key v)

/-- Read a field without metamethods. -/
def rawGet (h : Heap) (r : TableRef) (k : Value) : Value := (h.table r).get k.key

/-- Set a variable. -/
def setVariable (h : Heap) (r : VariableRef) (v : Value) : Heap :=
  { h with shared := h.shared.setIfInBounds r.index v }

/-- The metatable of a value. -/
def metatable? (h : Heap) : Value → Option TableRef
  | .table r => (h.table r).metatable
  | .str _ => some h.stringMeta
  | _ => none

/-- The metamethod of a value under a name, `nil` if it has none. -/
def metamethod (h : Heap) (v : Value) (name : String) : Value :=
  match h.metatable? v with
  | some m => (h.table m).get (.text name)
  | none => .nil

/-- What indexing a value comes to. -/
inductive Access where
  | found (v : Value)
  /-- A function is to be called with the object it belongs to. -/
  | handler (f object : Value)
  /-- The value cannot be indexed; `direct` tells that it is the one asked first. -/
  | refused (object : Value) (direct : Bool)
  /-- The chain of metatables is too long. -/
  | endless

/-- The longest chain of metatables that is followed. -/
def chainLimit : Nat := 2000

/-- Whether a value can be called as a handler without looking at its metatable. -/
def isFunction : Value → Bool
  | .closure _ | .builtin _ => true
  | _ => false

/-- Follow `__index` from a value to a field. -/
def lookup (h : Heap) (k : Value) (direct : Bool) : Nat → Value → Access
  | 0, _ => .endless
  | fuel + 1, o =>
    let own := match o with
      | .table r => h.rawGet r k
      | _ => .nil
    if own ≠ .nil then .found own
    else
      let handler := h.metamethod o "__index"
      if handler = .nil then
        match o with
        | .table _ => .found .nil
        | _ => .refused o direct
      else if isFunction handler then .handler handler o
      else lookup h k false fuel handler

/-- Where setting a field of a value comes to. -/
inductive Store where
  | into (r : TableRef)
  | handler (f object : Value)
  | refused (object : Value) (direct : Bool)
  | endless

/-- Follow `__newindex` from a value to the table that a field is set in. -/
def store (h : Heap) (k : Value) (direct : Bool) : Nat → Value → Store
  | 0, _ => .endless
  | fuel + 1, o =>
    let own := match o with
      | .table r => h.rawGet r k
      | _ => .nil
    match o with
    | .table r =>
      if own ≠ .nil then .into r
      else
        let handler := h.metamethod o "__newindex"
        if handler = .nil then .into r
        else if isFunction handler then .handler handler o
        else store h k false fuel handler
    | _ =>
      let handler := h.metamethod o "__newindex"
      if handler = .nil then .refused o direct
      else if isFunction handler then .handler handler o
      else store h k false fuel handler

end Heap

end LuaHost.Lua
