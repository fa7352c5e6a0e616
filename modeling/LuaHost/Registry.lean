import LuaHost.Lookup
import LuaHost.Path
import LuaHost.Registration

/-!
# The registry of scripts

The loaded scripts, oldest first, with an index of their names. Numbers of scripts and of
interpreter contexts are never used again.
-/

namespace LuaHost

/-- The number of a loaded script. -/
structure ScriptId where
  number : Nat
  deriving DecidableEq

/-- How a script is shown by its number. -/
def ScriptId.text (id : ScriptId) : String := "#" ++ toString id.number

/-- The number of an interpreter context. -/
structure ContextId where
  number : Nat
  deriving DecidableEq

/-- How a context is shown by its number. -/
def ContextId.text (id : ContextId) : String := "ctx" ++ toString id.number

/-- A loaded script and the context it runs in. -/
structure Script where
  id : ScriptId
  /-- The file it was loaded from. -/
  filename : String
  about : Registration
  context : ContextId
  /-- The load that brought the script in is complete. -/
  complete : Bool
  deriving DecidableEq

namespace Script

/-- The name a script registered under. -/
def name (s : Script) : String := s.about.name

/-- The file name of a script without directories. -/
def baseName (s : Script) : String := (Path.fileName? s.filename).getD s.filename

/-- The function to be called before the script is unloaded. -/
def shutdown? (s : Script) : Option String :=
  if s.about.shutdown.isEmpty then none else some s.about.shutdown

end Script

/-- The loaded scripts, oldest first, and an index of their names. -/
structure Registry where
  scripts : List Script
  byName : List (String × ScriptId)
  /-- The number of the script added last. -/
  lastId : Nat
  deriving DecidableEq

namespace Registry

/-- No script is loaded, and none was before. -/
def empty : Registry := ⟨[], [], 0⟩

/-- The script with a number. -/
def get? (r : Registry) (id : ScriptId) : Option Script := r.scripts.find? (·.id = id)

/-- Whether there is a script with a number. -/
def contains (r : Registry) (id : ScriptId) : Bool := r.scripts.any (·.id = id)

/-- The number of the script with a name. -/
def find? (r : Registry) (name : String) : Option ScriptId := r.byName.lookup name

/-- The oldest script with a file name, directories left aside. -/
def findByBaseName? (r : Registry) (baseName : String) : Option ScriptId :=
  (r.scripts.find? (·.baseName = baseName)).map Script.id

/-- The oldest script. -/
def first? (r : Registry) : Option ScriptId := r.scripts.head?.map Script.id

/-- Number of scripts. -/
def size (r : Registry) : Nat := r.scripts.length

/-- The number that the next script gets. -/
def nextId (r : Registry) : ScriptId := ⟨r.lastId + 1⟩

/-- Add a script under the next number. Its load is not complete. -/
def add (r : Registry) (filename : String) (about : Registration) (context : ContextId) :
    Registry :=
  { scripts := r.scripts ++ [⟨r.nextId, filename, about, context, false⟩]
    byName := (about.name, r.nextId) :: r.byName.filter (·.1 ≠ about.name)
    lastId := r.lastId + 1 }

/-- Note that the load of a script is complete. -/
def setComplete (r : Registry) (id : ScriptId) : Registry :=
  { r with scripts := r.scripts.map fun s => if s.id = id then { s with complete := true } else s }

/-- Remove a script. -/
def remove (r : Registry) (id : ScriptId) : Registry :=
  match r.get? id with
  | none => r
  | some script =>
    { r with
      scripts := r.scripts.filter (·.id ≠ id)
      byName := r.byName.filter (·.1 ≠ script.name) }

/-- The script loaded just before one of a list of scripts, else the one just after it. -/
def neighbourIn (id : ScriptId) : (before : Option ScriptId) → List Script → Option ScriptId
  | _, [] => none
  | before, s :: rest =>
    if s.id = id then before.or (rest.head?.map Script.id) else neighbourIn id (some s.id) rest

/-- The script loaded just before a script, else the one just after it. -/
def neighbour? (r : Registry) (id : ScriptId) : Option ScriptId := neighbourIn id none r.scripts

/-- Adding a script makes it known under its name and changes no other name. -/
@[simp] theorem find?_add (r : Registry) (filename name : String) (about : Registration)
    (context : ContextId) :
    (r.add filename about context).find? name =
      if name = about.name then some r.nextId else r.find? name := by
  have others := lookup_filter_ne about.name name r.byName
  by_cases h : name = about.name <;> simp_all [find?, add, lookup_cons_eq_ite]

/-- Removing a script makes its name free and changes no other name. -/
theorem find?_remove (r : Registry) (name : String) {id : ScriptId} {s : Script}
    (h : r.get? id = some s) :
    (r.remove id).find? name = if name = s.name then none else r.find? name := by
  simp only [find?, remove, h]
  exact lookup_filter_ne s.name name r.byName

/-- Adding a script uses one number up. -/
@[simp] theorem lastId_add (r : Registry) (filename : String) (about : Registration)
    (context : ContextId) : (r.add filename about context).lastId = r.lastId + 1 := rfl

/-- Removing a script gives no number back. -/
@[simp] theorem lastId_remove (r : Registry) (id : ScriptId) : (r.remove id).lastId = r.lastId := by
  unfold remove
  split <;> rfl

/-- Removing a script leaves the others in their order. -/
theorem scripts_remove (r : Registry) (id : ScriptId) :
    (r.remove id).scripts = r.scripts.filter (·.id ≠ id) := by
  unfold remove
  split
  · next h =>
    symm
    simpa [get?, List.find?_eq_none, List.filter_eq_self] using h
  · rfl

end Registry

end LuaHost
