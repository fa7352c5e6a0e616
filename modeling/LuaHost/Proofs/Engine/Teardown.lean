import LuaHost.Proofs.Core.Silence
import LuaHost.Proofs.Core.Utterances
import LuaHost.Proofs.Engine.Lines

/-!
# Under whose name finalizers print

A script is torn down in three rounds. Its context is released while the script is registered and
active, and released again when the script is gone and the context is destroyed; then its
interpreter state is closed. What finalizers print in the first round is delivered under the name of
the script, what they print later under no name. Nothing is printed in the second round unless
something is left to be finalized that only globals hold, which finalizers of the first round have
set, and nothing in the third one unless something is left that cannot be garbage before, such as
what the library holds.
-/

namespace LuaHost

namespace Lua

open Collector (collect)

/-- A collection that finds no garbage leaves the heap as it was. -/
theorem Collector.collect_of_nothing {h : Heap} {stack : List Frame}
    (nothing : (collect h stack).1 = []) : collect h stack = ([], h) := by
  unfold collect at nothing ⊢
  split
  · rfl
  · next some =>
    rw [if_neg some] at nothing
    simp only [List.partition_eq_filter_filter] at nothing ⊢
    rw [nothing]
    have alive := List.filter_eq_nil_iff.mp nothing
    rw [List.filter_eq_self.mpr fun r mem => by simpa using alive r mem]

/-- The machine that is to run no finalizer. -/
def idleCollector (h : Heap) : Machine := ⟨h, .finalizing [], [.report], 0⟩

private theorem collecting_of_nothing {h : Heap} (nothing : (collect h []).1 = []) :
    Interpreter.collecting h = idleCollector h := by
  rw [Interpreter.collecting, Collector.collect_of_nothing nothing]
  rfl

private theorem Collector.collect_of_finalizable_eq_nil {h : Heap} (nothing : h.finalizable = []) :
    (collect h []).1 = [] := by
  rw [collect, nothing]
  rfl

private theorem closing_of_nothing {h : Heap} (nothing : h.finalizable = []) :
    Interpreter.closing h = idleCollector h := by
  obtain ⟨tables, closures, shared, finalizable, globals, stringMeta, library⟩ := h
  obtain rfl := nothing
  rfl

end Lua

open Lua (Heap HostCall Reply)

private theorem Core.dialogue_idleCollector (c : Core) (budget : Nat) (h : Heap) :
    c.dialogue budget (Lua.idleCollector h) = [] :=
  dialogue_of_endsSilently (n := 2) rfl budget c

private theorem Core.dialogueWith_closingStep_idleCollector (c : Core) (budget : Nat) (h : Heap) :
    c.dialogueWith Lua.Machine.closingStep budget (Lua.idleCollector h) = [] := by
  match budget with
  | 0 | 1 | _ + 2 => rfl

private theorem Core.heap_run_idleCollector (c : Core) (budget : Nat) (h : Heap) :
    (c.run budget (Lua.idleCollector h)).2.1 = h := by
  match budget with
  | 0 | 1 | _ + 2 => rfl

namespace Engine

open Lua.Interpreter (collecting)
open LuaHost.Core (written)

/-! ### Releases and the closing of states -/

/-- What finalizers and the engine exchange while a context is released. -/
def releaseDialogue (e : Engine) (context : ContextId) : List (HostCall × Reply) :=
  let e := e.setHeap context (forget (e.heapOf context))
  e.dialogueIn context collecting ++
    (e.runIn context collecting).1.dialogueIn context collecting

private theorem talks_release (e : Engine) (context : ContextId) :
    e.core.Talks (e.releaseDialogue context) (e.release context).core := by
  have first := (e.setHeap context (forget (e.heapOf context))).talks_runIn context collecting
  exact first.append (talks_runIn _ context collecting)

/-- A heap that was set in a context that is alive is found there. -/
theorem heapOf_setHeap {e : Engine} {context : ContextId}
    (alive : context ∈ e.contexts.map Prod.fst) (heap : Heap) :
    (e.setHeap context heap).heapOf context = heap := by
  have replaced := lookup_map_replace context context heap e.contexts
  rw [if_pos rfl] at replaced
  obtain ⟨old, found⟩ : ∃ old, e.contexts.lookup context = some old := by
    by_contra missing
    have absent := Option.eq_none_iff_forall_ne_some.mpr fun old found => missing ⟨old, found⟩
    obtain ⟨x, mem, rfl⟩ := List.mem_map.mp alive
    simpa using List.lookup_eq_none_iff.mp absent x mem
  have contexts : (e.setHeap context heap).contexts =
      e.contexts.map fun x => if x.1 = context then (x.1, heap) else x := rfl
  rw [heapOf, contexts, replaced, found]
  rfl

/-- A collection that finds nothing to finalize leaves the interpreter state as it was. -/
theorem heapOf_runIn_collecting {e : Engine} {context : ContextId}
    (alive : context ∈ e.contexts.map Prod.fst)
    (nothing : (Lua.Collector.collect (e.heapOf context) []).1 = []) :
    (e.runIn context collecting).1.heapOf context = e.heapOf context := by
  have same := e.core.heap_run_idleCollector e.budget (e.heapOf context)
  rw [← Lua.collecting_of_nothing nothing] at same
  have alive' : context ∈
      ({ e with core := (e.core.run e.budget (collecting (e.heapOf context))).1 } :
        Engine).contexts.map Prod.fst := alive
  exact (heapOf_setHeap alive' _).trans same

private theorem dialogueIn_collecting {e : Engine} {context : ContextId}
    (nothing : (Lua.Collector.collect (e.heapOf context) []).1 = []) :
    e.dialogueIn context collecting = [] := by
  rw [dialogueIn, dialogueInWith, Lua.collecting_of_nothing nothing]
  exact e.core.dialogue_idleCollector e.budget _

/-- A release that finds nothing to finalize runs nothing. -/
theorem releaseDialogue_of_nothing {e : Engine} {context : ContextId}
    (alive : context ∈ e.contexts.map Prod.fst)
    (nothing : (Lua.Collector.collect (forget (e.heapOf context)) []).1 = []) :
    e.releaseDialogue context = [] := by
  have forgotten : (e.setHeap context (forget (e.heapOf context))).heapOf context =
      forget (e.heapOf context) := heapOf_setHeap alive _
  have kept : context ∈ (e.setHeap context (forget (e.heapOf context))).contexts.map Prod.fst := by
    rwa [(e.kept_setHeap context _).contexts]
  rw [← forgotten] at nothing
  unfold releaseDialogue
  generalize e.setHeap context (forget (e.heapOf context)) = e₁ at nothing kept ⊢
  have again : (Lua.Collector.collect ((e₁.runIn context collecting).1.heapOf context) []).1 =
      [] := by
    rwa [heapOf_runIn_collecting kept nothing]
  simp only [dialogueIn_collecting nothing, dialogueIn_collecting again, List.append_nil]

/-- What finalizers and the engine exchange while the interpreter state of a context is closed. -/
def closingDialogue (e : Engine) (context : ContextId) : List (HostCall × Reply) :=
  e.dialogueIn context collecting ++
    (e.runIn context collecting).1.dialogueInWith Lua.Machine.closingStep context
      Lua.Interpreter.closing

private theorem talks_closeState (e : Engine) (context : ContextId) :
    e.core.Talks (e.closingDialogue context) (e.closeState context).core :=
  (e.talks_runIn context collecting).append (talks_runInWith _ _ context Lua.Interpreter.closing)

/-- Closing an interpreter state with nothing left to finalize runs nothing. -/
theorem closingDialogue_of_nothing {e : Engine} {context : ContextId}
    (alive : context ∈ e.contexts.map Prod.fst)
    (nothing : (e.heapOf context).finalizable = []) : e.closingDialogue context = [] := by
  have garbage := Lua.Collector.collect_of_finalizable_eq_nil nothing
  have idle : Lua.Interpreter.closing (e.heapOf context) = Lua.idleCollector (e.heapOf context) :=
    Lua.closing_of_nothing nothing
  rw [closingDialogue, dialogueIn_collecting garbage, dialogueInWith,
    heapOf_runIn_collecting alive garbage, idle]
  exact Core.dialogueWith_closingStep_idleCollector _ _ _

/-! ### Teardown -/

/-- A script is registered, its context is alive, and neither a load, a call nor an evaluation is in
progress. -/
structure Departs (e : Engine) (s : Script) : Prop where
  found : e.script? s.id = some s
  alive : s.context ∈ e.contexts.map Prod.fst
  closed : e.core.Closed
  active : e.core.active = none
  evaluation : e.core.output.evaluation = none
  clean : '\n' ∉ e.pending.toList

/-- The engine when a script is active for its release. -/
def entered (e : Engine) (s : Script) : Engine := e.updateCore (·.activate (some s.id))

/-- The texts that finalizers print while their script is still there. -/
def lastWords (e : Engine) (s : Script) : List String :=
  written ((e.entered s).releaseDialogue s.context)

private theorem core_releaseScript (e : Engine) (s : Script) :
    (e.releaseScript s).core =
      ((e.entered s).release s.context).core.flush.restore e.core.active := rfl

/-- The engine when a script was released and taken out of the registry, and its context is still to
be destroyed. -/
def bereaved (e : Engine) (s : Script) : Engine :=
  (e.releaseScript s).updateCore (withdraw · s.id)

private theorem core_bereaved (e : Engine) (s : Script) :
    (e.bereaved s).core = withdraw (e.releaseScript s).core s.id := rfl

private theorem closed_withdraw {c : Core} (h : c.Closed) (id : ScriptId) :
    (withdraw c id).Closed := h

private theorem output_withdraw (c : Core) (id : ScriptId) : (withdraw c id).output = c.output :=
    rfl

private theorem active_withdraw {c : Core} (h : c.active = none) (id : ScriptId) :
    (withdraw c id).active = none := by
  rw [withdraw, h]
  rfl

/-- The texts that finalizers print when their script is gone. -/
def lateWords (e : Engine) (s : Script) : List String :=
  written ((e.bereaved s).releaseDialogue s.context)

/-- What is left to be finalized when a script is gone. -/
def lingering (e : Engine) (s : Script) : List Lua.TableRef :=
  (Lua.Collector.collect (forget ((e.bereaved s).heapOf s.context)) []).1

/-- A script that is torn down is bereaved of its context, and what is left is flushed. -/
theorem destroyScript_of_found {e : Engine} {s : Script} (found : e.script? s.id = some s) :
    e.destroyScript s.id =
      ((e.bereaved s).destroyContext s.context).updateCore Core.flush := by
  rw [destroyScript, found]
  rfl

/-- What is left to be finalized when the interpreter state of a script is closed. -/
def remaining (e : Engine) (s : Script) : List Lua.TableRef :=
  (((e.bereaved s).released s.context).heapOf s.context).finalizable

/-- The texts that finalizers print while the interpreter state of a script is closed. -/
def closingWords (e : Engine) (s : Script) : List String :=
  written (((e.bereaved s).released s.context).closingDialogue s.context)

/-- Letting go of a context makes no difference to the flush that follows. -/
theorem outputs_flush_dropContext (e : Engine) (context : ContextId) :
    ((e.dropContext context).updateCore Core.flush).core.outputs = e.core.flush.outputs := by
  have same : e.core.SameVoice (e.dropContext context).core := ⟨rfl, rfl, rfl⟩
  exact same.flush.outputs

section

variable {e : Engine} {s : Script} (h : e.Departs s)
include h

private theorem Departs.kept : e.Kept (e.releaseScript s) :=
  kept_releaseScript h.closed (activeKnown_of_eq_none h.active) s

/-- When nothing is left to be finalized, nothing is printed any more. -/
theorem Departs.lateWords_eq_nil (nothing : e.lingering s = []) : e.lateWords s = [] := by
  have alive : s.context ∈ (e.bereaved s).contexts.map Prod.fst := by
    have same : (e.bereaved s).contexts.map Prod.fst = e.contexts.map Prod.fst :=
      h.kept.contexts
    rw [same]
    exact h.alive
  rw [lateWords, releaseDialogue_of_nothing alive nothing]
  rfl

/-- The first round. -/
theorem Departs.outputs_release :
    (e.releaseScript s).core.outputs =
      e.core.outputs ++ logged (some s.name) (e.pending :: e.lastWords s) := by
  have registered : e.core.registry.get? s.id = some s := h.found
  have name : (e.entered s).core.activeName? = some s.name := by
    show (e.core.registry.get? s.id).map Script.name = some s.name
    rw [registered]
    rfl
  have printed := (talks_release (e.entered s) s.context).outputs_flush h.closed h.evaluation
    h.clean
  rw [core_releaseScript, Core.outputs_restore, printed, name]
  rfl

private theorem Departs.pending_release : (e.releaseScript s).pending = "" := by
  have kept := kept_release (e := e.entered s) h.closed s.context
  have idle : (((e.entered s).release s.context).updateCore Core.flush).core.output.evaluation =
      none := (kept.trans (kept_flush _)).core.evaluation.trans h.evaluation
  rw [pending, core_releaseScript]
  exact (drained_flush idle).pending

/-- When a script is gone no script is active, and nothing is pending. -/
theorem Departs.bereaved :
    (e.bereaved s).core.Closed ∧ (e.bereaved s).core.output.evaluation = none ∧
      (e.bereaved s).core.output.buffer = "" ∧ (e.bereaved s).core.activeName? = none := by
  have output : (e.bereaved s).core.output = (e.releaseScript s).core.output := by
    rw [core_bereaved, output_withdraw]
  refine ⟨?_, ?_, ?_, ?_⟩
  · rw [core_bereaved]
    exact closed_withdraw (h.kept.core_closed h.closed) s.id
  · rw [output]
    exact h.kept.core.evaluation.trans h.evaluation
  · rw [output]
    exact h.pending_release
  · rw [Core.activeName?, core_bereaved, active_withdraw (h.kept.core.active.trans h.active)]
    rfl

/-- The second release keeps all that matters for what is printed next. -/
theorem Departs.kept_released :
    (e.bereaved s).Kept ((e.bereaved s).released s.context) :=
  (kept_release h.bereaved.1 s.context).trans (kept_flush _)

/-- The second round. -/
theorem Departs.outputs_released :
    ((e.bereaved s).released s.context).core.outputs =
        (e.releaseScript s).core.outputs ++ logged none (e.lateWords s) ∧
      ((e.bereaved s).released s.context).Drained := by
  obtain ⟨closed, evaluation, pending, nameless⟩ := h.bereaved
  constructor
  · have printed := (talks_release (e.bereaved s) s.context).outputs_flush closed evaluation
      (by rw [pending]; exact List.not_mem_nil)
    rw [nameless, pending, logged_empty_cons] at printed
    rw [core_released]
    exact printed
  · exact drained_released (h.kept_released.core.evaluation.trans evaluation)

/-- The third round, with the flush behind it. -/
theorem Departs.outputs_closeState :
    (((e.bereaved s).released s.context).closeState s.context).core.flush.outputs =
      ((e.bereaved s).released s.context).core.outputs ++ logged none (e.closingWords s) := by
  obtain ⟨closed, -, -, nameless⟩ := h.bereaved
  have drained := h.outputs_released.2
  have pending : ((e.bereaved s).released s.context).core.output.buffer = "" := drained.pending
  have printed := (talks_closeState ((e.bereaved s).released s.context) s.context).outputs_flush
    (h.kept_released.core_closed closed) drained.evaluation
    (by rw [pending]; exact List.not_mem_nil)
  rw [h.kept_released.core.activeName?.trans nameless, pending, logged_empty_cons] at printed
  exact printed

/-- All three rounds. -/
theorem Departs.outputs_destroyScript :
    (e.destroyScript s.id).core.outputs =
      e.core.outputs ++ logged (some s.name) (e.pending :: e.lastWords s) ++
        logged none (e.lateWords s) ++ logged none (e.closingWords s) := by
  have last := outputs_flush_dropContext
    (((e.bereaved s).released s.context).closeState s.context) s.context
  rw [h.outputs_closeState, h.outputs_released.1, h.outputs_release] at last
  rw [destroyScript_of_found h.found, destroyContext_eq]
  exact last

/-- When nothing is left to be finalized, the closing of the interpreter state prints nothing. -/
theorem Departs.closingWords_eq_nil (nothing : e.remaining s = []) : e.closingWords s = [] := by
  have keys : ((e.bereaved s).released s.context).contexts.map Prod.fst =
      e.contexts.map Prod.fst := h.kept_released.contexts.trans h.kept.contexts
  rw [closingWords, closingDialogue_of_nothing (by rw [keys]; exact h.alive) nothing]
  rfl

end

/-! ### The ways to be torn down -/

/-- The engine when a script that is unloaded was shut down. -/
def shut (e : Engine) (s : Script) : Engine :=
  (e.updateCore (·.inform ("unloading script \"" ++ s.name ++ "\""))).shutDown s

/-- Shutting a script down keeps the engine. -/
theorem kept_shut {e : Engine} (h : e.Settled) (s : Script) : e.Kept (e.shut s) := by
  have informed := e.kept_inform ("unloading script \"" ++ s.name ++ "\"")
  exact informed.trans
    (kept_shutDown (informed.core_closed h.closed) (informed.activeKnown h.activeKnown) s)

/-- A script is torn down between two engines: it is unloaded, or the load that it was registered in
fails. -/
inductive TearsDown (e : Engine) : Script → Engine → Engine → Prop where
  | unload {s : Script} (found : e.script? s.id = some s) :
      TearsDown e s (e.shut s) (e.unload s.id).1
  | undo (filename : String) (source : ByteArray) (inFile : Bool) {about : Registration}
      {message : String} (registers : Core.accepted (e.sourceDialogue filename source) = [about])
      (fails : e.sourceFailure? filename source = some message) :
      TearsDown e ⟨e.core.registry.nextId, filename, about, e.nextContext, false⟩
        (e.ended filename source inFile).1 (e.loadSource filename source inFile).1

private theorem outputs_unload {e : Engine} {s : Script} (found : e.script? s.id = some s) :
    (e.unload s.id).1.core.outputs = ((e.shut s).destroyScript s.id).core.outputs := by
  have forgotten (e' : Engine) : (if e'.scratch = some s.id then { e' with scratch := none }
      else e').core.outputs = e'.core.outputs := by split <;> rfl
  simp only [unload, found]
  exact (Core.outputs_emit _ _).trans ((List.append_nil _).trans (forgotten _))

section

variable {e : Engine} (settled : e.Settled) (evaluation : e.core.output.evaluation = none)
  (clean : '\n' ∉ e.pending.toList)
include settled evaluation clean

private theorem departs_shut {s : Script} (found : e.script? s.id = some s) :
    (e.shut s).Departs s := by
  have kept := kept_shut settled s
  have steps : e.Proceeds (e.shut s) := (e.proceeds_inform _).trans (proceeds_shutDown _ s)
  exact
    { found := (kept.script? s.id).trans found
      alive := by
        rw [kept.contexts, settled.contexts]
        exact List.mem_map_of_mem ((settled.wellFormed.get?_eq_some_iff s.id s).mp found).1
      closed := kept.core_closed settled.closed
      active := kept.core.active.trans settled.active
      evaluation := kept.core.evaluation.trans evaluation
      clean := steps.core.clean clean }

/-- A script that was registered in a load is there when the load is closed. -/
theorem departs_ended {filename : String} {source : ByteArray} (inFile : Bool)
    {about : Registration}
    (registers : Core.accepted (e.sourceDialogue filename source) = [about]) :
    (e.ended filename source inFile).2 = some e.core.registry.nextId ∧
      (e.ended filename source inFile).1.Departs
        ⟨e.core.registry.nextId, filename, about, e.nextContext, false⟩ := by
  rcases ended_cases settled filename source inFile with
    ⟨nobody, -, -⟩ | ⟨about', accepted, -, kept, registered⟩
  · rw [registers] at nobody
    cases nobody
  · obtain rfl : about = about' := (List.cons.inj (registers.symm.trans accepted)).1
    have opened := (e.proceeds_openLoad filename).trans
      (proceeds_runLoad _ e.nextContext filename source inFile)
    have steps : e.Proceeds (e.ended filename source inFile).1 :=
      opened.trans ⟨.aside rfl rfl rfl rfl, rfl⟩
    have keys : (e.withScript filename about).contexts.map Prod.fst =
        e.contexts.map Prod.fst ++ [e.nextContext] := List.map_append
    exact ⟨registered,
      { found := by
          rw [script?, kept.core.registry]
          exact settled.wellFormed.get?_add_nextId filename about e.nextContext
        alive := by
          rw [kept.contexts, keys]
          exact List.mem_append_right _ (List.mem_singleton_self _)
        closed := kept.core_closed settled.closed
        active := kept.core.active.trans settled.active
        evaluation := kept.core.evaluation.trans evaluation
        clean := steps.core.clean clean }⟩

/-- A script is torn down with nothing else in progress, and nothing else prints output. -/
theorem TearsDown.departs {e₁ e₂ : Engine} {s : Script} (torn : e.TearsDown s e₁ e₂) :
    e₁.Departs s ∧ e₂.core.outputs = (e₁.destroyScript s.id).core.outputs := by
  cases torn with
  | unload found => exact ⟨departs_shut settled evaluation clean found, outputs_unload found⟩
  | undo filename source inFile registers fails =>
    obtain ⟨registered, departs⟩ := departs_ended settled evaluation clean inFile registers
    refine ⟨departs, ?_⟩
    rw [loadSource_eq, fails, registered]
    rfl

end

/-- A script with an object that prints when it is finalized. -/
def mortal : Engine :=
  bare.perform (.load "s.lua" (some "weechat.register('s', '', '', '', '', '', '')
x = setmetatable(\x7b\x7d, \x7b__gc = function() print('bye') end\x7d)"))

/-- A script with an object that is finalized by making another one, which prints when it is
finalized. -/
def heir : Engine :=
  bare.perform (.load "s.lua" (some "weechat.register('s', '', '', '', '', '', '')
x = setmetatable(\x7b\x7d, \x7b__gc = function()
  y = setmetatable(\x7b\x7d, \x7b__gc = function() print('late') end\x7d)
end\x7d)"))

/-- A script that leaves an object with the library, which prints when it is finalized. -/
def donor : Engine :=
  bare.perform (.load "s.lua" (some "weechat.register('s', '', '', '', '', '', '')
weechat.keep = setmetatable(\x7b\x7d, \x7b__gc = function() io.write(42) end\x7d)"))

/-- The script of each of these engines. -/
def testator : Script := ⟨⟨1⟩, "s.lua", ⟨"s", "", "", "", "", "", ""⟩, ⟨1⟩, true⟩

/-- The script of an engine is about to be torn down by its unload, with nothing printed so far. -/
def Doomed (e : Engine) : Prop :=
  e.script? testator.id = some testator ∧ (e.shut testator).core.outputs = [] ∧
    (e.shut testator).pending = ""

instance (e : Engine) : Decidable e.Doomed := inferInstanceAs (Decidable (_ ∧ _ ∧ _))

set_option maxRecDepth 100000 in
private theorem words_mortal :
    mortal.Doomed ∧ (mortal.shut testator).lastWords testator = ["bye\n"] ∧
      (mortal.shut testator).lingering testator = [] ∧
      (mortal.shut testator).remaining testator = [] := by
  decide +kernel

set_option maxRecDepth 100000 in
private theorem words_heir :
    heir.Doomed ∧ (heir.shut testator).lastWords testator = [] ∧
      (heir.shut testator).lateWords testator = ["late\n"] ∧
      (heir.shut testator).closingWords testator = [] := by
  decide +kernel

set_option maxRecDepth 100000 in
private theorem words_donor :
    donor.Doomed ∧ (donor.shut testator).lastWords testator = [] ∧
      (donor.shut testator).lateWords testator = [] ∧
      (donor.shut testator).closingWords testator = ["42"] := by
  decide +kernel

/-- The output of an unload, by rounds. -/
theorem Doomed.outputs_unload {e : Engine} (h : e.Doomed) (reachable : e.Reachable) :
    (e.unload testator.id).1.core.outputs =
      logged (some testator.name) ((e.shut testator).lastWords testator) ++
        logged none ((e.shut testator).lateWords testator) ++
        logged none ((e.shut testator).closingWords testator) := by
  obtain ⟨found, before, pending⟩ := h
  have departs := departs_shut reachable.settled reachable.evaluation reachable.clean found
  have outputs := (Engine.outputs_unload found).trans departs.outputs_destroyScript
  rwa [before, pending, List.nil_append, logged_empty_cons] at outputs

end Engine

end LuaHost
