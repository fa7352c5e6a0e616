import LuaHost.Proofs.Core.Silence
import LuaHost.Proofs.Engine.Results
import LuaHost.Proofs.Engine.Teardown
import LuaHost.Proofs.Exchange

/-!
# Tables that go to a script and come back

A host table becomes a table of the script when it is passed to a function, and the table that the
function returns becomes a host table again. A function that returns its argument gives the host
the table back without its nulls.
-/

namespace LuaHost

namespace Lua

open Machine

/-! ### Functions that give their argument back -/

/-- The body of a function that gives its argument back. -/
inductive IsIdentity : Body → Prop where
  | named (x : Name) (isVariadic : Bool) (line : Nat) :
    IsIdentity (.mk [x] isVariadic [.give [.name line x]])
  | variadic : IsIdentity (.mk [] true [.give [.varargs]])

/-- Whether a body is that of a function that gives its argument back. -/
def isIdentity : Body → Bool
  | .mk [x] _ [.give [.name _ y]] => x = y
  | .mk [] true [.give [.varargs]] => true
  | _ => false

private theorem isIdentity_iff (body : Body) : isIdentity body = true ↔ IsIdentity body := by
  constructor
  · intro h
    unfold isIdentity at h
    split at h
    · obtain rfl := of_decide_eq_true h
      exact .named _ _ _
    · exact .variadic
    · cases h
  · rintro (_ | _) <;> simp [isIdentity]

instance (body : Body) : Decidable (IsIdentity body) := decidable_of_iff _ (isIdentity_iff body)

/-- A machine that is finished by silent steps ends its run so, if it gets enough of them. -/
theorem run_of_comesTo? {n budget : Nat} {m : Machine} {heap : Heap} {outcome : Outcome}
    (finishes : m.comesTo? n = some (.finished heap outcome)) (enough : n ≤ budget) (c : Core) :
    c.run budget m = (c, heap, outcome) := by
  induction n generalizing m budget with
  | zero => cases finishes
  | succ n ih =>
    obtain ⟨budget, rfl⟩ := Nat.exists_eq_add_of_le' (Nat.le_trans (Nat.succ_pos n) enough)
    rw [Core.run, Core.runWith]
    cases step : m.step with
    | running next =>
      simp only [comesTo?, step] at finishes
      exact ih finishes (Nat.le_of_succ_le_succ enough)
    | asking call next => simp [comesTo?, step] at finishes
    | finished h o =>
      simp only [comesTo?, step, Option.some.injEq, Step.finished.injEq] at finishes
      obtain ⟨rfl, rfl⟩ := finishes
      rfl

private theorem valueOf_newVariable (h : Heap) (v : Value) :
    (h.newVariable v).2.valueOf (h.newVariable v).1 = v := by
  simp [Heap.newVariable, Heap.valueOf]

/-- A function that gives its argument back needs six steps for it and changes no table. -/
theorem comesTo?_identity {h : Heap} {r : ClosureRef} {f : Closure} (found : h.closure? r = some f)
    (identity : IsIdentity f.body) (v : Value) :
    ∃ h', (Interpreter.start h (.closure r) [v]).comesTo? 6 =
      some (.finished h' (.returned [v])) ∧ h'.tables = h.tables := by
  obtain ⟨body, captured, chunk⟩ := f
  -- The call, the statement, its expression, its values, the return, and the report to the host.
  cases identity with
  | named x isVariadic line =>
    have value : (h.newVariable (firstOf [v])).2.valueOf (h.newVariable (firstOf [v])).1 = v :=
      valueOf_newVariable h v
    refine ⟨(h.newVariable (firstOf [v])).2, ?_, rfl⟩
    simp [comesTo?, Interpreter.start, step, call, found, enter, depthLimit, bindAll, execute,
      evalList, push, Body.parameters, Body.statements, Expr.isCall, eval, readName, Env.find?,
      Env.bind, goto, unwind, deliver, reach, leaveFunction, value]
  | variadic =>
    refine ⟨h, ?_, rfl⟩
    simp [comesTo?, Interpreter.start, step, call, found, enter, depthLimit, bindAll, execute,
      evalList, push, Body.parameters, Body.statements, Body.isVariadic, Expr.isCall, eval, goto,
      unwind, deliver, reach, leaveFunction]

end Lua

namespace Engine

open Exchange (Uniform ofHostTable toHostTable withoutNulls)
open HostTable (Ordered)
open Lua (Heap Value)

/-! ### Calls with a table -/

/-- A global of a registered script is a function that gives its argument back, and a call may take
as many steps as that needs. -/
structure GivesBack (e : Engine) (s : Script) (function : String) : Prop where
  reachable : e.Reachable
  registered : e.script? s.id = some s
  identity : ∃ r f, (e.lookUp s function).2 = .closure r ∧
    ((e.lookUp s function).1.heapOf s.context).closure? r = some f ∧ Lua.IsIdentity f.body
  enough : 6 ≤ e.budget

private theorem Settled.alive {e : Engine} (h : e.Settled) {s : Script}
    (registered : e.script? s.id = some s) : s.context ∈ e.contexts.map Prod.fst := by
  rw [h.contexts]
  exact List.mem_map_of_mem (Registry.get?_mem registered)

private theorem table_newTable (h : Heap) (t : Lua.Table) :
    (h.newTable t).2.table (h.newTable t).1 = t := by
  simp [Heap.newTable, Heap.table]

/-- A function that gives its argument back returns the table that it is passed, as it was. -/
theorem apply_identity {e : Engine} {context : ContextId}
    (alive : context ∈ e.contexts.map Prod.fst) (enough : 6 ≤ e.budget) {f : Lua.ClosureRef}
    {c : Lua.Closure} (found : (e.heapOf context).closure? f = some c)
    (identity : Lua.IsIdentity c.body) (t : HostTable) :
    ∃ r, (e.apply context (.closure f) [.table t]).2 = .returned [.table r] ∧
      ((e.apply context (.closure f) [.table t]).1.heapOf context).table r = ofHostTable t := by
  -- Passing the table adds it to the tables of the script, and the call changes none of them.
  obtain ⟨heap, finishes, tables⟩ := Lua.comesTo?_identity
    (h := ((e.heapOf context).newTable (ofHostTable t)).2) found identity
    (.table ((e.heapOf context).newTable (ofHostTable t)).1)
  have applied : e.apply context (.closure f) [.table t] =
      (e.setHeap context heap,
        .returned [.table ((e.heapOf context).newTable (ofHostTable t)).1]) := by
    have run := Lua.run_of_comesTo? finishes enough e.core
    rw [Core.run] at run
    simp only [apply, runIn, runInWith, ofArguments, ofArgument, run]
  rw [applied]
  refine ⟨_, rfl, ?_⟩
  rw [heapOf_setHeap alive, Heap.table, tables]
  exact table_newTable _ _

/-- The call of a function that gives its argument back returns the table, as it was passed. -/
theorem GivesBack.returns {e : Engine} {s : Script} {function : String}
    (h : e.GivesBack s function) (t : HostTable) :
    ∃ r, e.Returns s function [.table t] [.table r] ∧
      ((e.called s function [.table t]).1.heapOf s.context).table r = ofHostTable t := by
  obtain ⟨f, c, named, found, identity⟩ := h.identity
  have settled := h.reachable.settled
  have active : (e.updateCore (·.activate (some s.id))).core.Closed := settled.closed
  have kept := kept_global active s.context function
  have alive : s.context ∈ (e.lookUp s function).1.contexts.map Prod.fst :=
    kept.contexts ▸ settled.alive h.registered
  have enough : 6 ≤ (e.lookUp s function).1.budget := kept.budget ▸ h.enough
  obtain ⟨r, returned, table⟩ := apply_identity alive enough found identity t
  rw [← named] at returned table
  exact ⟨r, ⟨h.registered, (by decide : 1 ≤ maxArguments), by rw [named]; rfl, returned⟩, table⟩

/-- A function that returns a table with the fields of a host table of texts gives that host table
as the result, but for its nulls. -/
theorem Returns.invoke_table {e : Engine} {s : Script} {function : String}
    {arguments : List Argument} {r : Lua.TableRef} {vs : List Value}
    (h : e.Returns s function arguments (.table r :: vs)) {t : HostTable}
    (ordered : Ordered t.entries) (uniform : Uniform t)
    (texts : t.keyKind = .text ∧ t.cellKind = .text)
    (fields : (((e.called s function arguments).1.heapOf s.context).table r).fields.Perm
      (ofHostTable t).fields) :
    (e.invoke s.id .table function arguments).2 = some (.table (withoutNulls t)) := by
  have result := congrArg Prod.snd (invoke_of_returns h .table)
  have back := Exchange.toHostTable_ofHostTable ordered uniform fields
  rw [texts.1, texts.2] at back
  rw [result, Coercion.result?_eq_some_iff, ← back]
  rfl

/-- A host table of texts or of handles that goes to a script comes back without its nulls,
whatever its keys are, and in whatever order its entries are set and the fields are read. So a table
of texts is the same for the host when a function returns it as it was passed, like one that does
nothing but give its argument back. -/
theorem table_comes_back {t : HostTable} (ordered : Ordered t.entries) (uniform : Uniform t) :
    (∀ table : Lua.Table, table.fields.Perm (ofHostTable t).fields →
      toHostTable table t.keyKind t.cellKind = withoutNulls t) ∧
      (∀ order : List (String × Cell), order.Perm t.entries →
        (order.foldl Exchange.setEntry .empty).fields.Perm (ofHostTable t).fields) ∧
      (t.keyKind = .text → t.cellKind = .text → (∀ entry ∈ t.entries, entry.2 ≠ .null) →
        ∀ (e : Engine) (s : Script) (function : String),
          (∀ r vs, e.Returns s function [.table t] (.table r :: vs) →
            ((e.called s function [.table t]).1.heapOf s.context).table r = ofHostTable t →
            (e.invoke s.id .table function [.table t]).2 = some (.table t)) ∧
          (e.GivesBack s function →
            (e.invoke s.id .table function [.table t]).2 = some (.table t))) := by
  refine ⟨fun _ perm => Exchange.toHostTable_ofHostTable ordered uniform perm,
    fun _ perm => Exchange.perm_foldl_setEntry ordered perm, ?_⟩
  intro keys cells full e s function
  have same : withoutNulls t = t := by
    rw [withoutNulls, List.filter_eq_self.mpr fun entry there => decide_eq_true (full entry there)]
  have unchanged (r : Lua.TableRef) (vs : List Value)
      (returns : e.Returns s function [.table t] (.table r :: vs))
      (table : ((e.called s function [.table t]).1.heapOf s.context).table r = ofHostTable t) :
      (e.invoke s.id .table function [.table t]).2 = some (.table t) := by
    have fields := List.Perm.of_eq (congrArg Lua.Table.fields table)
    rw [returns.invoke_table ordered uniform ⟨keys, cells⟩ fields, same]
  refine ⟨unchanged, fun givesBack => ?_⟩
  obtain ⟨r, returns, table⟩ := givesBack.returns t
  exact unchanged r [] returns table

/-- A script with a function that gives its argument back. -/
def echoing : Engine := bare.perform (.load "s.lua" (some
  "weechat.register('s', '', '', '', '', '', '')
function echo(x) return x end"))

/-- The script of `echoing`. -/
def echoer : Script := ⟨⟨1⟩, "s.lua", ⟨"s", "", "", "", "", "", ""⟩, ⟨1⟩, true⟩

set_option maxRecDepth 100000 in
private theorem echoing_givesBack : echoing.GivesBack echoer "echo" := by
  obtain ⟨registered, named, found, enough⟩ : echoing.script? ⟨1⟩ = some echoer ∧
      (echoing.lookUp echoer "echo").2 = .closure ⟨13⟩ ∧
      (((echoing.lookUp echoer "echo").1.heapOf echoer.context).closure? ⟨13⟩).map
        (fun f => decide (Lua.IsIdentity f.body)) = some true ∧
      6 ≤ echoing.budget := by decide +kernel
  obtain ⟨f, there, identity⟩ := Option.map_eq_some_iff.mp found
  exact ⟨reachable_bare.perform _, registered, ⟨_, f, named, there, of_decide_eq_true identity⟩,
    enough⟩

/-- Texts under keys of several kinds. -/
def sundry : HostTable := .ofPairs [("é", "1"), ("", "2"), ("10", "é")]

/-- The case of texts under keys of several kinds. -/
theorem table_comes_back_echoing :
    toHostTable (ofHostTable sundry) .text .text = sundry ∧
      (echoing.invoke ⟨1⟩ .table "echo" [.table sundry]).2 = some (.table sundry) := by
  have comesBack := table_comes_back (t := sundry) (HostTable.ordered_ofPairs _) (by decide +kernel)
  have full : ∀ e ∈ sundry.entries, e.2 ≠ .null := by decide +kernel
  have same : withoutNulls sundry = sundry := by decide +kernel
  exact ⟨(comesBack.1 _ (List.Perm.refl _)).trans same,
    (comesBack.2.2 rfl rfl full echoing echoer "echo").2 echoing_givesBack⟩

end Engine

end LuaHost
