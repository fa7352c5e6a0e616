import LuaHost.Proofs.Engine.Settled

/-!
# What a load comes to

A load ends in one of two ways. Either its source runs through and registers one script, which
then stands at the end of the registry, or the load fails and leaves nothing behind but the
numbers it used up. The dialogue between the source and the engine tells which.
-/

namespace LuaHost.Engine

open Lua (HostCall Reply)

/-! ### The run of a source -/

/-- The context that a load creates. -/
def nextContext (e : Engine) : ContextId := ⟨e.core.created + 1⟩

/-- The engine when the source of a load starts to run. -/
def started (e : Engine) (filename : String) : Engine :=
  (e.openLoad filename).1.updateCore (·.activate none)

/-- The failure that the source of a load ends in, if any. -/
def sourceFailure? (e : Engine) (filename : String) (source : ByteArray) : Option String :=
  ((e.started filename).runSource e.nextContext filename source).2

/-- What the source of a load and the engine exchange. A source that does not compile says
nothing. -/
def sourceDialogue (e : Engine) (filename : String) (source : ByteArray) :
    List (HostCall × Reply) :=
  match compileSource filename source with
  | .error _ => []
  | .ok body => (e.started filename).dialogueIn e.nextContext (sourceMachine filename body)

/-- The engine with one more context. -/
def withContext (e : Engine) : Engine :=
  { e with
    core := { e.core with created := e.core.created + 1 }
    contexts := e.contexts ++ [(e.nextContext, Lua.Interpreter.fresh)] }

/-- The load of a file while it waits for a registration. -/
def waiting (e : Engine) (filename : String) : Loading := ⟨filename, e.nextContext, none⟩

/-- The engine with another load in progress, or none. -/
def inLoad (e : Engine) (loading : Option Loading) : Engine :=
  e.updateCore fun c => { c with loading }

/-- The context of a load is the next one. -/
theorem openLoad_snd (e : Engine) (filename : String) :
    (e.openLoad filename).2 = e.nextContext :=
  congrArg (fun n => ContextId.mk (n + 1)) (Core.kept_inform _ _).created

private theorem kept_openLoad (e : Engine) (filename : String) :
    (e.withContext.inLoad (some (e.waiting filename))).Kept (e.openLoad filename).1 := by
  have hk := Core.kept_inform e.core ("loading script \"" ++ filename ++ "\"")
  refine ⟨⟨?_, rfl, rfl, rfl, rfl, rfl⟩, ?_⟩
  · simp only [openLoad, createContext, updateCore, inLoad, withContext, nextContext, hk.created]
  · exact
      { hk with
        loading := by
          simp only [openLoad, createContext, updateCore, inLoad, waiting, nextContext, hk.created]
        created := congrArg (· + 1) hk.created }

private theorem sameAround_runSource (e : Engine) (context : ContextId) (filename : String)
    (source : ByteArray) : e.SameAround (e.runSource context filename source).1 := by
  unfold runSource
  split
  · exact .refl e
  · next body _ =>
    have hk := e.sameAround_runIn context (sourceMachine filename body)
    split
    · next heq => rw [heq] at hk; exact hk
    · next heq => rw [heq] at hk; exact hk

/-- The run of a source changes the state that scripts reach through its dialogue only. -/
theorem talks_runSource (e : Engine) (filename : String) (source : ByteArray) :
    (e.started filename).core.Talks (e.sourceDialogue filename source)
      ((e.started filename).runSource e.nextContext filename source).1.core := by
  unfold sourceDialogue runSource
  cases hc : compileSource filename source with
  | error message => exact .silent _
  | ok body =>
    have hk := (e.started filename).talks_runIn e.nextContext (sourceMachine filename body)
    dsimp only
    split
    · next heq => rw [heq] at hk; exact hk
    · next heq => rw [heq] at hk; exact hk

private theorem kept_reportSource (e : Engine) (filename : String) (inFile : Bool)
    (failure : Option String) : e.Kept (e.reportSource filename inFile failure) := by
  unfold reportSource
  split
  · exact .refl e
  · exact e.kept_updateCore ((Core.kept_complain _ _).trans (Core.kept_report _ _))

/-! ### The end of a run -/

/-- The engine when a load is closed, and the script that it registered. -/
def ended (e : Engine) (filename : String) (source : ByteArray) (inFile : Bool) :
    Engine × Option ScriptId :=
  ((e.openLoad filename).1.runLoad e.nextContext filename source inFile).1.closeLoad

/-- The engine with one more context, which a script of the given registration runs in. -/
def withScript (e : Engine) (filename : String) (about : Registration) : Engine :=
  e.withContext.updateCore fun c =>
    { c with registry := c.registry.add filename about e.nextContext }

private theorem Kept.close {e e' : Engine} (h : e.Kept e') :
    (e.inLoad none).Kept e'.closeLoad.1 :=
  ⟨⟨h.contexts, h.scratch, h.closed, h.files, h.environment, h.budget⟩,
    { h.core with loading := rfl }⟩

private theorem kept_inLoad {e : Engine} (h : e.core.loading = none) (loading : Option Loading) :
    e.Kept ((e.inLoad loading).inLoad none) :=
  ⟨⟨rfl, rfl, rfl, rfl, rfl, rfl⟩, { Core.Kept.refl e.core with loading := h.symm }⟩

/-- Closing a load that waited changes the engine as the dialogue of its source tells. -/
theorem ended_cases {e : Engine} (h : e.Settled) (filename : String) (source : ByteArray)
    (inFile : Bool) :
    (Core.accepted (e.sourceDialogue filename source) = [] ∧
      e.withContext.Kept (e.ended filename source inFile).1 ∧
      (e.ended filename source inFile).2 = none) ∨
    (∃ about, Core.accepted (e.sourceDialogue filename source) = [about] ∧
      e.core.registry.find? about.name = none ∧
      (e.withScript filename about).Kept (e.ended filename source inFile).1 ∧
      (e.ended filename source inFile).2 = some e.core.registry.nextId) := by
  have opened := e.kept_openLoad filename
  have around := sameAround_runSource (e.started filename) e.nextContext filename source
  have loading : (e.started filename).core.loading = some (e.waiting filename) :=
    opened.core.loading
  have admits := (e.talks_runSource filename source).admits loading
  have reported := kept_reportSource
    ((e.started filename).runSource e.nextContext filename source).1 filename inFile
    (e.sourceFailure? filename source)
  have flushed := reported.trans (kept_flush _)
  have idle : (e.openLoad filename).1.core.active = none := opened.core.active.trans h.active
  -- All that the run may have done to the registry is in the names the dialogue was granted: none,
  -- or the one of the script.
  generalize Core.accepted (e.sourceDialogue filename source) = names at admits ⊢
  cases admits with
  | nobody hk =>
    refine .inl ⟨rfl, ?_, ?_⟩
    · have ran : (e.started filename).Kept _ := ⟨around, hk⟩
      have restored := kept_restore (activeKnown_of_eq_none idle) (ran.trans flushed)
      exact (kept_inLoad (e := e.withContext) h.loading _).trans (opened.trans restored).close
    · have still := flushed.core.loading.trans (hk.loading.trans loading)
      exact congrArg (·.bind Loading.registered) still
  | one about free hk =>
    have free' : e.core.registry.find? about.name = none := by
      rw [← free]
      exact congrArg (·.find? about.name) opened.core.registry.symm
    refine .inr ⟨about, rfl, free', ?_, ?_⟩
    · -- The script is active until the run ends; then none is, as before the load.
      let enlisted : Engine := (e.openLoad filename).1.updateCore fun c =>
        { c.enlist (e.waiting filename) about with active := c.active }
      have ran : (enlisted.updateCore (·.activate (some
          (e.openLoad filename).1.core.registry.nextId))).Kept _ :=
        ⟨{ around with }, hk⟩
      have restored := kept_restore (e := enlisted) (activeKnown_of_eq_none idle)
        (ran.trans flushed)
      have same : (e.withScript filename about).Kept (enlisted.inLoad none) :=
        ⟨{ opened.toSameAround with },
          { opened.core with
            registry := (opened.core.enlist (e.waiting filename) about).registry
            loading := h.loading.symm }⟩
      exact same.trans restored.close
    · have still := flushed.core.loading.trans hk.loading
      have number : (e.started filename).core.registry.nextId = e.core.registry.nextId :=
        congrArg Registry.nextId opened.core.registry
      rw [← number]
      exact congrArg (·.bind Loading.registered) still

/-! ### The two outcomes -/

/-- The engine after a load that left nothing behind but the numbers it used up. -/
def spent (e : Engine) (lastId : Nat) : Engine :=
  e.updateCore fun c =>
    { c with
      registry := { c.registry with lastId }
      created := c.created + 1
      destroyed := c.destroyed + 1 }

/-- The engine after a load that succeeded, but for output. -/
def loaded (e : Engine) (filename : String) (about : Registration) : Engine :=
  (e.withScript filename about).updateCore fun c =>
    { c with registry := c.registry.setComplete e.core.registry.nextId }.emit
      (@Event.signal .engine Signal.scriptLoaded.name filename)

/-- A context that was just created leaves no trace when it is dropped. -/
theorem contexts_dropContext {e : Engine} (h : e.Settled) :
    (e.withContext.dropContext e.nextContext).contexts = e.contexts := by
  have others : e.contexts.filter (·.1 ≠ e.nextContext) = e.contexts := by
    refine List.filter_eq_self.mpr fun x hx => ?_
    have hne : x.1 ≠ e.nextContext := fun he => h.fresh (List.mem_map.mpr ⟨x, hx, he⟩)
    simpa using hne
  show (e.contexts ++ [_]).filter (·.1 ≠ e.nextContext) = e.contexts
  rw [List.filter_append, others, List.filter_cons_of_neg (by simp), List.filter_nil,
    List.append_nil]

private theorem kept_undo_context {e e' : Engine} (h : e.Settled) (hk : e.withContext.Kept e') :
    (e.spent e.core.registry.lastId).Kept (e'.destroyContext e.nextContext) := by
  have same : (e.spent e.core.registry.lastId).Kept (e.withContext.dropContext e.nextContext) :=
    ⟨⟨congrArg _ (contexts_dropContext h), rfl, rfl, rfl, rfl, rfl⟩, .refl _⟩
  exact (same.trans (hk.dropContext _)).trans
    (kept_destroyContext (hk.core_closed h.closed) _)

private theorem kept_undo_script {e e' : Engine} (h : e.Settled) {filename : String}
    {about : Registration} (free : e.core.registry.find? about.name = none)
    (hk : (e.withScript filename about).Kept e') :
    (e.spent (e.core.registry.lastId + 1)).Kept (e'.destroyScript e.core.registry.nextId) := by
  let s : Script := ⟨e.core.registry.nextId, filename, about, e.nextContext, false⟩
  have found : e'.script? s.id = some s := by
    rw [script?, hk.core.registry]
    exact h.wellFormed.get?_add_nextId filename about e.nextContext
  have same :
      (e.spent (e.core.registry.lastId + 1)).Kept ((e.withScript filename about).without s) :=
    ⟨⟨congrArg _ (contexts_dropContext h), rfl, rfl, rfl, rfl, rfl⟩,
      { Core.Kept.refl _ with
        registry := h.wellFormed.remove_add free filename e.nextContext
        active := by
          show (if e.core.active = some s.id then _ else e.core.active) = e.core.active
          rw [h.active]
          rfl }⟩
  have idle : e'.core.active = none := hk.core.active.trans h.active
  exact (same.trans ((hk.withdraw s.id).dropContext s.context)).trans
    (kept_destroyScript (hk.core_closed h.closed) (activeKnown_of_eq_none idle) found)

private theorem kept_completeLoad {e e' : Engine} {filename : String} {about : Registration}
    (hk : (e.withScript filename about).Kept e') :
    (e.loaded filename about).Kept (e'.completeLoad e.core.registry.nextId filename) := by
  refine ⟨{ hk.toSameAround with }, ?_⟩
  exact
    { hk.core with
      registry := congrArg (·.setComplete e.core.registry.nextId) hk.core.registry
      sent := by
        simp only [completeLoad, loaded, updateCore, Core.sent_emit, Event.own?, Option.toList_none,
          List.append_nil]
        exact congrArg (· ++ _) hk.core.sent }

/-- A load runs its source and concludes from what came of it. -/
theorem loadSource_eq (e : Engine) (filename : String) (source : ByteArray) (inFile : Bool) :
    e.loadSource filename source inFile =
      (e.ended filename source inFile).1.concludeLoad e.nextContext filename
        (e.sourceFailure? filename source) (e.ended filename source inFile).2 := by
  have opened : e.openLoad filename = ((e.openLoad filename).1, e.nextContext) :=
    Prod.ext rfl (e.openLoad_snd filename)
  rw [loadSource, opened]
  rfl

/-- A load of a source succeeds exactly when the source runs through and registers a script, and
it registers one then. Otherwise nothing is left behind but the numbers it used up. -/
theorem loadSource_cases {e : Engine} (h : e.Settled) (filename : String) (source : ByteArray)
    (inFile : Bool) :
    (∃ about, e.sourceFailure? filename source = none ∧
      Core.accepted (e.sourceDialogue filename source) = [about] ∧
      e.core.registry.find? about.name = none ∧
      (e.loadSource filename source inFile).2 = .ok e.core.registry.nextId ∧
      (e.loaded filename about).Kept (e.loadSource filename source inFile).1) ∨
    (∃ failure lastId, (e.sourceFailure? filename source ≠ none ∨
        Core.accepted (e.sourceDialogue filename source) = []) ∧
      (e.loadSource filename source inFile).2 = .error failure ∧
      e.core.registry.lastId ≤ lastId ∧
      (e.spent lastId).Kept (e.loadSource filename source inFile).1) := by
  rw [loadSource_eq]
  rcases ended_cases h filename source inFile with
    ⟨none_accepted, kept, registered⟩ | ⟨about, one_accepted, free, kept, registered⟩
  · cases hf : e.sourceFailure? filename source with
    | some message =>
      rw [registered]
      exact .inr ⟨_, _, .inl (Option.some_ne_none _), rfl, Nat.le_refl _, kept_undo_context h kept⟩
    | none =>
      rw [registered]
      exact .inr ⟨_, _, .inr none_accepted, rfl, Nat.le_refl _,
        kept_undo_context h (kept.trans (kept_complain _ _))⟩
  · cases hf : e.sourceFailure? filename source with
    | some message =>
      rw [registered]
      exact .inr ⟨_, _, .inl (Option.some_ne_none _), rfl, Nat.le_succ _,
        kept_undo_script h free kept⟩
    | none =>
      rw [registered]
      exact .inl ⟨about, rfl, one_accepted, free, rfl, kept_completeLoad kept⟩

end LuaHost.Engine
