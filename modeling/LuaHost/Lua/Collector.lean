import LuaHost.Lua.Machine.State

/-!
# Finding garbage

A collection marks what can be reached from the globals, the library and the running functions.
Finalizable tables that were not marked are then finalized, the one made finalizable last first;
those that were marked are when the state is closed. Nothing is taken out of the heap: memory is not
part of what a script can observe.
-/

namespace LuaHost.Lua

/-- A reference to something in the heap. -/
inductive Ref where
  | table (r : TableRef)
  | closure (r : ClosureRef)
  | variable (r : VariableRef)
  deriving DecidableEq

namespace Collector

/-- What a value refers to. -/
def ofValue : Value → List Ref
  | .table r => [.table r]
  | .closure r => [.closure r]
  | _ => []

/-- What values refer to. -/
def ofValues (vs : List Value) : List Ref := vs.flatMap ofValue

/-- What an environment refers to. -/
def ofEnv (env : Env) : List Ref :=
  env.locals.map (.variable ·.2) ++ env.captured.map (.variable ·.2) ++ ofValues env.extra

/-- What a place for a value refers to. -/
def ofSlot : Slot → List Ref
  | .variable r => [.variable r]
  | .field o k _ => ofValues [o, k]

/-- What a goal refers to. -/
def ofGoal : Goal → List Ref
  | .call _ _ f first => ofValues (f :: first)
  | .assign _ slots => slots.flatMap ofSlot
  | _ => []

/-- What a frame refers to. -/
def ofFrame : Frame → List Ref
  | .unary _ _ _ env | .left _ _ _ _ env | .both _ env | .either _ env | .indexed _ _ _ env
  | .callee _ _ _ env | .receiver _ _ _ _ env | .rest _ env | .branch _ _ env | .test _ _ env
  | .looping _ _ env | .counting _ _ env _ => ofEnv env
  | .right _ _ _ _ env v => ofValue v ++ ofEnv env
  | .key _ _ env o | .method _ _ _ env o => ofValue o ++ ofEnv env
  | .list done _ env goal => ofValues done ++ ofEnv env ++ ofGoal goal
  | .item _ r items _ env | .fieldKey _ r items _ _ env => .table r :: ofValues items ++ ofEnv env
  | .fieldValue _ r items key _ env => .table r :: ofValues (key :: items) ++ ofEnv env
  | .iterating _ _ _ env f s => ofValues [f, s] ++ ofEnv env
  | .eachDone _ _ _ env f s control => ofValues [f, s, control] ++ ofEnv env
  | .targetObject _ _ _ done _ _ env => done.flatMap ofSlot ++ ofEnv env
  | .targetKey _ _ o done _ _ env => ofValue o ++ done.flatMap ofSlot ++ ofEnv env
  | .stores _ rest env => rest.flatMap (fun (s, v) => ofSlot s ++ ofValue v) ++ ofEnv env
  | .printing _ rest => ofValues rest
  | .finalizing rest => rest.map .table
  | .first | .discard | .tail | .activation _ | .guarded _ | .asText | .report | .reportText => []

/-- What something in the heap refers to. -/
def children (h : Heap) : Ref → List Ref
  | .table r =>
    let t := h.table r
    ofValues (t.fields.map (·.1)) ++ ofValues (t.fields.map (·.2)) ++
      (t.metatable.map Ref.table).toList
  | .closure r =>
    match h.closure? r with
    | some c => c.captured.map (.variable ·.2)
    | none => []
  | .variable r => ofValue (h.valueOf r)

/-- Which parts of the heap were reached. -/
structure Marks where
  tables : Array Bool
  closures : Array Bool
  shared : Array Bool

/-- Nothing was reached. -/
def Marks.none (h : Heap) : Marks :=
  ⟨.replicate h.tables.size false, .replicate h.closures.size false,
    .replicate h.shared.size false⟩

/-- Whether something was reached. -/
def Marks.has (m : Marks) : Ref → Bool
  | .table r => (m.tables[r.index]?).getD true
  | .closure r => (m.closures[r.index]?).getD true
  | .variable r => (m.shared[r.index]?).getD true

/-- Mark something as reached. -/
def Marks.add (m : Marks) : Ref → Marks
  | .table r => { m with tables := m.tables.setIfInBounds r.index true }
  | .closure r => { m with closures := m.closures.setIfInBounds r.index true }
  | .variable r => { m with shared := m.shared.setIfInBounds r.index true }

/-- Mark what can be reached from a list of references; each step takes one of them. -/
def mark (h : Heap) : Nat → List Ref → Marks → Marks
  | 0, _, m => m
  | _, [], m => m
  | fuel + 1, r :: rest, m =>
    if m.has r then mark h fuel rest m else mark h fuel (children h r ++ rest) (m.add r)

/-- The number of references held in the heap, and more. -/
def references (h : Heap) : Nat :=
  h.tables.foldl (fun n t => n + 2 * t.fields.length + 1) 0 +
    h.closures.foldl (fun n c => n + c.captured.length) 0 + h.shared.size

/-- The references that are alive until the state is closed, whatever scripts do. -/
def permanent (h : Heap) : List Ref :=
  .table h.globals :: .table h.stringMeta :: h.library.map .table

/-- The finalizable tables that cannot be reached from the running functions and what is always
alive, and the heap in which they are finalizable no longer. -/
def collect (h : Heap) (stack : List Frame) : List TableRef × Heap :=
  if h.finalizable.isEmpty then ([], h)
  else
    let roots := permanent h ++ stack.flatMap ofFrame
    let marks := mark h (roots.length + references h + 1) roots (Marks.none h)
    let (dead, alive) := h.finalizable.partition fun r => !marks.has (.table r)
    (dead, { h with finalizable := alive })

end Collector

end LuaHost.Lua
