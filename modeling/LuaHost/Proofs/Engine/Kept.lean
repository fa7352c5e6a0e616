import LuaHost.Engine.Evaluate
import LuaHost.Proofs.Core.Dialogue
import LuaHost.Proofs.Registry

/-!
# What calls and teardowns leave alone

Outside a load no script can register, so a call of a script function, a collection and the
release of a context keep the engine but for output, requests, timers and the log. Destroying a
script takes that script and its context away and keeps the rest.
-/

namespace LuaHost.Engine

open Lua (Heap Machine)

/-- The engine around the state that scripts reach is as it was, but for what is inside the
interpreter states. -/
structure SameAround (e e' : Engine) : Prop where
  contexts : e'.contexts.map Prod.fst = e.contexts.map Prod.fst
  scratch : e'.scratch = e.scratch
  closed : e'.closed = e.closed
  files : e'.files = e.files
  environment : e'.environment = e.environment
  budget : e'.budget = e.budget

/-- All but output, requests, timers, the log and the inside of interpreter states is as it was. -/
structure Kept (e e' : Engine) : Prop extends SameAround e e' where
  core : e.core.Kept e'.core

namespace SameAround

variable {a b c : Engine}

/-- An engine is itself around its core. -/
theorem refl (e : Engine) : e.SameAround e := ⟨rfl, rfl, rfl, rfl, rfl, rfl⟩

/-- What is the same around the core over two stretches is the same over both. -/
theorem trans (h : a.SameAround b) (h' : b.SameAround c) : a.SameAround c where
  contexts := h'.contexts.trans h.contexts
  scratch := h'.scratch.trans h.scratch
  closed := h'.closed.trans h.closed
  files := h'.files.trans h.files
  environment := h'.environment.trans h.environment
  budget := h'.budget.trans h.budget

end SameAround

namespace Kept

variable {a b c : Engine}

/-- An engine keeps itself. -/
theorem refl (e : Engine) : e.Kept e := ⟨.refl e, .refl e.core⟩

/-- What is kept over two stretches is kept over both. -/
theorem trans (h : a.Kept b) (h' : b.Kept c) : a.Kept c :=
  ⟨h.toSameAround.trans h'.toSameAround, h.core.trans h'.core⟩

/-- A load that waits for no registration goes on so. -/
theorem core_closed (h : a.Kept b) (hc : a.core.Closed) : b.core.Closed := h.core.closed hc

/-- The same scripts are found. -/
theorem script? (h : a.Kept b) (id : ScriptId) : b.script? id = a.script? id := by
  rw [Engine.script?, h.core.registry]
  rfl

end Kept

private theorem sameAround_updateCore (e : Engine) (f : Core → Core) :
    e.SameAround (e.updateCore f) :=
  ⟨rfl, rfl, rfl, rfl, rfl, rfl⟩

/-- What keeps the core keeps the engine. -/
theorem kept_updateCore (e : Engine) {f : Core → Core} (h : e.core.Kept (f e.core)) :
    e.Kept (e.updateCore f) := ⟨e.sameAround_updateCore f, h⟩

/-- Reporting an error keeps the engine. -/
theorem kept_complain (e : Engine) (message : String) :
    e.Kept (e.updateCore (·.complain message)) := e.kept_updateCore (Core.kept_complain _ _)

/-- Telling the host something keeps the engine. -/
theorem kept_say (e : Engine) (message : String) :
    e.Kept (e.updateCore (·.say message)) := e.kept_updateCore (Core.kept_say _ _)

/-- A notice keeps the engine. -/
theorem kept_inform (e : Engine) (message : String) :
    e.Kept (e.updateCore (·.inform message)) := e.kept_updateCore (Core.kept_inform _ _)

private theorem kept_report (e : Engine) (failure : String) :
    e.Kept (e.updateCore (·.report failure)) := e.kept_updateCore (Core.kept_report _ _)

/-- A flush keeps the engine. -/
theorem kept_flush (e : Engine) : e.Kept (e.updateCore Core.flush) :=
  e.kept_updateCore (Core.kept_flush _)

/-- What is on the heap of a context makes no difference to what is kept. -/
theorem kept_setHeap (e : Engine) (context : ContextId) (heap : Heap) :
    e.Kept (e.setHeap context heap) := by
  refine ⟨⟨?_, rfl, rfl, rfl, rfl, rfl⟩, .refl _⟩
  simp only [setHeap, List.map_map]
  refine List.map_congr_left fun x _ => ?_
  simp only [Function.comp]
  split <;> rfl

/-! ### Runs -/

/-- What a script and the engine exchange when a machine runs in a context by steps of a kind. -/
def dialogueInWith (step : Machine → Lua.Step) (e : Engine) (context : ContextId)
    (setUp : Heap → Machine) : List (Lua.HostCall × Lua.Reply) :=
  e.core.dialogueWith step e.budget (setUp (e.heapOf context))

/-- What a script and the engine exchange when a machine runs in a context. -/
def dialogueIn (e : Engine) (context : ContextId) (setUp : Heap → Machine) :
    List (Lua.HostCall × Lua.Reply) :=
  e.dialogueInWith Machine.step context setUp

section

variable (step : Machine → Lua.Step) (e : Engine) (context : ContextId) (setUp : Heap → Machine)

/-- A machine in a context changes nothing around the core but the heap. -/
theorem sameAround_runInWith : e.SameAround (e.runInWith step context setUp).1 := by
  have first (core : Core) : e.SameAround { e with core } := ⟨rfl, rfl, rfl, rfl, rfl, rfl⟩
  exact (first _).trans (kept_setHeap _ context _).toSameAround

/-- A machine in a context changes the core through its dialogue only. -/
theorem talks_runInWith :
    e.core.Talks (e.dialogueInWith step context setUp) (e.runInWith step context setUp).1.core :=
  Core.talks_runWith step e.budget e.core (setUp (e.heapOf context))

/-- A run in a context changes nothing around the core but the heap. -/
theorem sameAround_runIn : e.SameAround (e.runIn context setUp).1 :=
  e.sameAround_runInWith Machine.step context setUp

/-- A run in a context changes the core through its dialogue only. -/
theorem talks_runIn : e.core.Talks (e.dialogueIn context setUp) (e.runIn context setUp).1.core :=
  e.talks_runInWith Machine.step context setUp

end

/-- Outside a load no run of a script changes more than it may, whatever a step does. -/
theorem kept_runInWith {e : Engine} (h : e.core.Closed) (step : Machine → Lua.Step)
    (context : ContextId) (setUp : Heap → Machine) :
    e.Kept (e.runInWith step context setUp).1 :=
  ⟨e.sameAround_runInWith step context setUp,
    ((e.talks_runInWith step context setUp).kept_of_closed h).1⟩

private theorem kept_runIn {e : Engine} (h : e.core.Closed) (context : ContextId)
    (setUp : Heap → Machine) : e.Kept (e.runIn context setUp).1 :=
  kept_runInWith h Machine.step context setUp

/-- A release keeps the engine when no load waits. -/
theorem kept_release {e : Engine} (h : e.core.Closed) (context : ContextId) :
    e.Kept (e.release context) := by
  have first := e.kept_setHeap context (forget (e.heapOf context))
  have second := kept_runIn (first.core_closed h) context Lua.Interpreter.collecting
  have third := kept_runIn (second.core_closed (first.core_closed h)) context
    Lua.Interpreter.collecting
  exact (first.trans second).trans third

private theorem kept_closeState {e : Engine} (h : e.core.Closed) (context : ContextId) :
    e.Kept (e.closeState context) := by
  have collected := kept_runIn h context Lua.Interpreter.collecting
  exact collected.trans (kept_runInWith (collected.core_closed h) Machine.closingStep context
    Lua.Interpreter.closing)

/-! ### The active script -/

/-- The active script is none or a registered one. -/
def ActiveKnown (c : Core) : Prop := c.active.filter c.registry.contains = c.active

/-- No active script is none that is unknown. -/
theorem activeKnown_of_eq_none {c : Core} (h : c.active = none) : ActiveKnown c := by
  rw [ActiveKnown, h]
  rfl

/-- The active script goes on to be a registered one. -/
theorem Kept.activeKnown {e e' : Engine} (h : e.Kept e') (known : ActiveKnown e.core) :
    ActiveKnown e'.core := by
  rw [ActiveKnown, h.core.active, h.core.registry]
  exact known

/-- What is kept while another script is active is kept over all, once the script active before is
active again. -/
theorem kept_restore {e e' : Engine} {script : Option ScriptId} (known : ActiveKnown e.core)
    (h : (e.updateCore (·.activate script)).Kept e') :
    e.Kept (e'.updateCore (·.restore e.core.active)) := by
  refine ⟨⟨h.contexts, h.scratch, h.closed, h.files, h.environment, h.budget⟩, ?_⟩
  have hk := h.core
  have hr : e'.core.registry = e.core.registry := hk.registry
  exact
    { registry := hr
      active := by
        show e.core.active.filter e'.core.registry.contains = e.core.active
        rw [hr]
        exact known
      evaluation := hk.evaluation
      loading := hk.loading
      requests := hk.requests
      quiet := hk.quiet
      options := hk.options
      clock := hk.clock
      created := hk.created
      destroyed := hk.destroyed
      license := hk.license
      sent := hk.sent }

/-! ### Calls -/

/-- Looking a global up keeps the engine when no load waits. -/
theorem kept_global {e : Engine} (h : e.core.Closed) (context : ContextId)
    (name : String) : e.Kept (e.global context name).1 := by
  cases hl : (e.heapOf context).lookup (.text name) true Heap.chainLimit
      (.table (e.heapOf context).globals) with
  | found v =>
    simp only [global, hl]
    exact .refl e
  | handler f object =>
    have hk := kept_runIn h context fun heap =>
      Lua.Interpreter.start heap f [object, .text name]
    simp only [global, hl]
    split
    · next heq => rw [heq] at hk; exact hk
    · next heq => rw [heq] at hk; exact hk
  | refused object direct =>
    simp only [global, hl]
    exact .refl e
  | endless =>
    simp only [global, hl]
    exact .refl e

private theorem kept_apply {e : Engine} (h : e.core.Closed) (context : ContextId)
    (f : Lua.Value) (arguments : List Argument) : e.Kept (e.apply context f arguments).1 :=
  kept_runIn h context _

private theorem kept_settleOutcome (e : Engine) (context : ContextId) (kind : ResultKind)
    (function : String) (outcome : Lua.Outcome) :
    e.Kept (e.settleOutcome context kind function outcome).1 := by
  unfold settleOutcome
  split
  · exact e.kept_report _
  · split
    · exact .refl e
    · exact .refl e
    · exact e.kept_complain _

/-- A call inside a script keeps the engine when no load waits. -/
theorem kept_invokeActive {e : Engine} (h : e.core.Closed) (context : ContextId)
    (kind : ResultKind) (function : String) (arguments : List Argument) :
    e.Kept (e.invokeActive context kind function arguments).1 := by
  have found := kept_global h context function
  unfold invokeActive
  rcases hg : e.global context function with ⟨e₁, f⟩
  rw [hg] at found
  dsimp only
  split
  · exact found.trans (e₁.kept_complain _)
  · have called := kept_apply (found.core_closed h) context f arguments
    rcases ha : e₁.apply context f arguments with ⟨e₂, outcome⟩
    rw [ha] at called
    have settled := kept_settleOutcome (e₂.updateCore Core.flush) context kind function outcome
    dsimp only
    rcases hs : (e₂.updateCore Core.flush).settleOutcome context kind function outcome
      with ⟨e₃, result⟩
    rw [hs] at settled
    have before := ((found.trans called).trans e₂.kept_flush).trans settled
    refine Kept.trans ?_ (kept_flush _)
    split
    · exact before.trans (e₃.kept_complain _)
    · exact before

/-- A call keeps the engine when no load waits and the active script is registered. -/
theorem kept_invoke {e : Engine} (h : e.core.Closed) (known : ActiveKnown e.core)
    (script : ScriptId) (kind : ResultKind) (function : String) (arguments : List Argument) :
    e.Kept (e.invoke script kind function arguments).1 := by
  unfold invoke
  split
  · exact e.kept_complain _
  · split
    · exact e.kept_complain _
    · next s _ =>
      have active : (e.updateCore (·.activate (some script))).core.Closed := h
      exact kept_restore known (kept_invokeActive active s.context kind function arguments)

/-! ### Teardown -/

/-- What is kept before a context is let go of is kept behind it. -/
theorem Kept.dropContext {e e' : Engine} (h : e.Kept e') (context : ContextId) :
    (e.dropContext context).Kept (e'.dropContext context) := by
  have keys (xs : List (ContextId × Heap)) :
      (xs.filter (·.1 ≠ context)).map Prod.fst = (xs.map Prod.fst).filter (· ≠ context) := by
    rw [List.filter_map]
    rfl
  refine ⟨⟨?_, h.scratch, h.closed, h.files, h.environment, h.budget⟩, ?_⟩
  · simp only [Engine.dropContext, keys, h.contexts]
  · exact { h.core with destroyed := congrArg (· + 1) h.core.destroyed }

/-- What is kept before a script is taken out is kept behind it. -/
theorem Kept.withdraw {e e' : Engine} (h : e.Kept e') (id : ScriptId) :
    (e.updateCore (withdraw · id)).Kept (e'.updateCore (withdraw · id)) := by
  refine ⟨⟨h.contexts, h.scratch, h.closed, h.files, h.environment, h.budget⟩, ?_⟩
  exact
    { h.core with
      registry := congrArg (·.remove id) h.core.registry
      active := by
        show (if _ then _ else _) = (if _ then _ else _)
        rw [h.core.active, h.core.registry] }

/-- Destroying a context lets go of it and keeps the rest. -/
theorem kept_destroyContext {e : Engine} (h : e.core.Closed) (context : ContextId) :
    (e.dropContext context).Kept (e.destroyContext context) := by
  have released := (kept_release h context).trans (kept_flush _)
  exact (released.trans (kept_closeState (released.core_closed h) context)).dropContext context

/-- The release of a script keeps the engine. -/
theorem kept_releaseScript {e : Engine} (h : e.core.Closed) (known : ActiveKnown e.core)
    (s : Script) : e.Kept (e.releaseScript s) := by
  have active : (e.updateCore (·.activate (some s.id))).core.Closed := h
  have released := (kept_release active s.context).trans (kept_flush _)
  exact kept_restore known released

/-- The engine without a script and its context. -/
def without (e : Engine) (s : Script) : Engine :=
  (e.updateCore (withdraw · s.id)).dropContext s.context

/-- Destroying a script takes it and its context away and keeps the rest. -/
theorem kept_destroyScript {e : Engine} (h : e.core.Closed) (known : ActiveKnown e.core)
    {id : ScriptId} {s : Script} (hs : e.script? id = some s) :
    (e.without s).Kept (e.destroyScript id) := by
  obtain rfl := Registry.id_of_get? hs
  have withdrawn := (kept_releaseScript h known s).withdraw s.id
  have closed := withdrawn.core_closed h
  simp only [destroyScript, hs]
  refine Kept.trans ?_ (kept_flush _)
  exact (withdrawn.dropContext s.context).trans (kept_destroyContext closed s.context)

/-- The shutdown function of a script keeps the engine. -/
theorem kept_shutDown {e : Engine} (h : e.core.Closed) (known : ActiveKnown e.core)
    (s : Script) : e.Kept (e.shutDown s) := by
  unfold shutDown
  split
  · exact kept_invoke h known ..
  · exact .refl e

private theorem Kept.clearScratch {e e' : Engine} (h : e.Kept e') (id : ScriptId) :
    { e with scratch := if e.scratch = some id then none else e.scratch }.Kept
      (if e'.scratch = some id then { e' with scratch := none } else e') := by
  rw [h.scratch]
  split
  · exact ⟨⟨h.contexts, rfl, h.closed, h.files, h.environment, h.budget⟩, h.core⟩
  · exact ⟨⟨h.contexts, h.scratch, h.closed, h.files, h.environment, h.budget⟩, h.core⟩

/-- What is kept before an event is kept behind it. -/
theorem Kept.emit {e e' : Engine} (h : e.Kept e') (event : Event) :
    (e.updateCore (·.emit event)).Kept (e'.updateCore (·.emit event)) := by
  refine ⟨⟨h.contexts, h.scratch, h.closed, h.files, h.environment, h.budget⟩, ?_⟩
  refine { h.core with sent := ?_ }
  exact ((Core.sent_emit _ _).trans (congrArg (· ++ _) h.core.sent)).trans
    (Core.sent_emit _ _).symm

/-- The engine after a script was unloaded, but for output. -/
def unloaded (e : Engine) (s : Script) : Engine :=
  { e.without s with scratch := if e.scratch = some s.id then none else e.scratch }.updateCore
    (·.emit (@Event.signal .engine Signal.scriptUnloaded.name s.filename))

/-- Unloading a script succeeds, takes it and its context away, sends the signal and keeps the
rest, whatever the script does meanwhile. -/
theorem kept_unload {e : Engine} (h : e.core.Closed) (known : ActiveKnown e.core)
    {id : ScriptId} {s : Script} (hs : e.script? id = some s) :
    (e.unload id).2 = .ok () ∧ (e.unloaded s).Kept (e.unload id).1 := by
  obtain rfl := Registry.id_of_get? hs
  have informed := e.kept_inform ("unloading script \"" ++ s.name ++ "\"")
  have shut := informed.trans
    (kept_shutDown (informed.core_closed h) (informed.activeKnown known) s)
  simp only [unload, hs, true_and]
  generalize (e.updateCore (·.inform ("unloading script \"" ++ s.name ++ "\""))).shutDown s = e₁
    at shut ⊢
  have found : e₁.script? s.id = some s := (shut.script? s.id).trans hs
  have destroyed := ((shut.withdraw s.id).dropContext s.context).trans
    (kept_destroyScript (shut.core_closed h) (shut.activeKnown known) found)
  exact (destroyed.clearScratch s.id).emit _

end LuaHost.Engine
