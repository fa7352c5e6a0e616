import LuaHost.Proofs.Core.Proceeding
import LuaHost.Proofs.Engine.Kept
import LuaHost.Proofs.Engine.Moves

/-!
# Operations proceed by steps

Every function of the engine that takes no waiting request and no timer away is a sequence of
steps, whatever scripts do meanwhile and in whatever state the engine is. So what a step keeps
holds after every such operation.
-/

namespace LuaHost.Engine

open Lua (Heap Machine)

/-- What scripts reach goes on by steps, and the engine is not closed meanwhile. -/
structure Proceeds (e e' : Engine) : Prop where
  core : e.core.Proceeds e'.core
  closed : e'.closed = e.closed

namespace Proceeds

variable {a b c : Engine}

private theorem refl (e : Engine) : e.Proceeds e := ⟨.refl e.core, rfl⟩

/-- One way goes on where the other one ends. -/
theorem trans (h : a.Proceeds b) (h' : b.Proceeds c) : a.Proceeds c :=
  ⟨h.core.trans h'.core, h'.closed.trans h.closed⟩

end Proceeds

private theorem proceeds_updateCore (e : Engine) {f : Core → Core}
    (h : e.core.Proceeds (f e.core)) :
    e.Proceeds (e.updateCore f) := ⟨h, rfl⟩

private theorem proceeds_print (e : Engine) (line : String) :
    e.Proceeds (e.updateCore (·.print line)) :=
  e.proceeds_updateCore (.aside rfl rfl rfl rfl)

private theorem proceeds_complain (e : Engine) (message : String) :
    e.Proceeds (e.updateCore (·.complain message)) :=
  e.proceeds_updateCore (Core.proceeds_complain _ _)

/-- A notice is a step of an engine at work. -/
theorem proceeds_inform (e : Engine) (message : String) :
    e.Proceeds (e.updateCore (·.inform message)) :=
  e.proceeds_updateCore (Core.proceeds_inform _ _)

private theorem proceeds_report (e : Engine) (failure : String) :
    e.Proceeds (e.updateCore (·.report failure)) :=
  e.proceeds_updateCore (Core.proceeds_report _ _)

private theorem proceeds_emit (e : Engine) (event : Event) :
    e.Proceeds (e.updateCore (·.emit event)) :=
  e.proceeds_updateCore (.aside rfl rfl rfl rfl)

private theorem proceeds_flush (e : Engine) : e.Proceeds (e.updateCore Core.flush) :=
  e.proceeds_updateCore (Core.proceeds_flush _)

private theorem proceeds_activate (e : Engine) (script : Option ScriptId) :
    e.Proceeds (e.updateCore (·.activate script)) :=
  e.proceeds_updateCore (.aside rfl rfl rfl rfl)

private theorem proceeds_restore (e : Engine) (previous : Option ScriptId) :
    e.Proceeds (e.updateCore (·.restore previous)) :=
  e.proceeds_updateCore (.aside rfl rfl rfl rfl)

private theorem proceeds_setHeap (e : Engine) (context : ContextId) (heap : Heap) :
    e.Proceeds (e.setHeap context heap) := ⟨.refl e.core, rfl⟩

private theorem proceeds_dropContext (e : Engine) (context : ContextId) :
    e.Proceeds (e.dropContext context) := ⟨.aside rfl rfl rfl rfl, rfl⟩

/-! ### Runs and calls -/

private theorem proceeds_runInWith (e : Engine) (step : Machine → Lua.Step) (context : ContextId)
    (setUp : Heap → Machine) : e.Proceeds (e.runInWith step context setUp).1 :=
  ⟨(e.talks_runInWith step context setUp).proceeds,
    (e.sameAround_runInWith step context setUp).closed⟩

private theorem proceeds_runIn (e : Engine) (context : ContextId) (setUp : Heap → Machine) :
    e.Proceeds (e.runIn context setUp).1 :=
  e.proceeds_runInWith Machine.step context setUp

private theorem proceeds_release (e : Engine) (context : ContextId) :
    e.Proceeds (e.release context) := by
  have forgotten := e.proceeds_setHeap context (forget (e.heapOf context))
  have once := forgotten.trans (proceeds_runIn _ context Lua.Interpreter.collecting)
  exact once.trans (proceeds_runIn _ context Lua.Interpreter.collecting)

private theorem proceeds_closeState (e : Engine) (context : ContextId) :
    e.Proceeds (e.closeState context) := by
  have collected := e.proceeds_runIn context Lua.Interpreter.collecting
  exact collected.trans (proceeds_runInWith _ Machine.closingStep context Lua.Interpreter.closing)

private theorem proceeds_global (e : Engine) (context : ContextId) (name : String) :
    e.Proceeds (e.global context name).1 := by
  unfold global
  dsimp only
  split
  · exact .refl e
  · next f object _ =>
    have ran := e.proceeds_runIn context fun h =>
      Lua.Interpreter.start h f [object, .text name]
    split
    · next heq => rw [heq] at ran; exact ran
    · next heq => rw [heq] at ran; exact ran
  · exact .refl e
  · exact .refl e

private theorem proceeds_apply (e : Engine) (context : ContextId) (f : Lua.Value)
    (arguments : List Argument) : e.Proceeds (e.apply context f arguments).1 :=
  e.proceeds_runIn context _

private theorem proceeds_settleOutcome (e : Engine) (context : ContextId) (kind : ResultKind)
    (function : String) (outcome : Lua.Outcome) :
    e.Proceeds (e.settleOutcome context kind function outcome).1 := by
  unfold settleOutcome
  split
  · exact e.proceeds_report _
  · split
    · exact .refl e
    · exact .refl e
    · exact e.proceeds_complain _

private theorem proceeds_invokeActive (e : Engine) (context : ContextId) (kind : ResultKind)
    (function : String) (arguments : List Argument) :
    e.Proceeds (e.invokeActive context kind function arguments).1 := by
  have found := e.proceeds_global context function
  unfold invokeActive
  generalize e.global context function = result at found ⊢
  obtain ⟨e₁, f⟩ := result
  dsimp only at found ⊢
  split
  · exact found.trans (e₁.proceeds_complain _)
  · have called := found.trans (e₁.proceeds_apply context f arguments)
    generalize e₁.apply context f arguments = result at called ⊢
    obtain ⟨e₂, outcome⟩ := result
    have settled := (called.trans e₂.proceeds_flush).trans
      (proceeds_settleOutcome _ context kind function outcome)
    refine Proceeds.trans ?_ (proceeds_flush _)
    split
    · exact settled.trans (proceeds_complain _ _)
    · exact settled

/-- A call is made of steps. -/
theorem proceeds_invoke (e : Engine) (script : ScriptId) (kind : ResultKind)
    (function : String) (arguments : List Argument) :
    e.Proceeds (e.invoke script kind function arguments).1 := by
  unfold invoke
  split
  · exact e.proceeds_complain _
  · split
    · exact e.proceeds_complain _
    · next s _ =>
      have called := (e.proceeds_activate (some script)).trans
        (proceeds_invokeActive _ s.context kind function arguments)
      exact called.trans (proceeds_restore _ _)

/-! ### Teardown -/

private theorem proceeds_destroyContext (e : Engine) (context : ContextId) :
    e.Proceeds (e.destroyContext context) := by
  have released := (e.proceeds_release context).trans (proceeds_flush _)
  have closed := released.trans (proceeds_closeState _ context)
  exact closed.trans (proceeds_dropContext _ context)

private theorem proceeds_releaseScript (e : Engine) (s : Script) :
    e.Proceeds (e.releaseScript s) := by
  have released := (e.proceeds_activate (some s.id)).trans (proceeds_release _ s.context)
  exact (released.trans (proceeds_flush _)).trans (proceeds_restore _ _)

private theorem proceeds_withdraw (e : Engine) (id : ScriptId) :
    e.Proceeds (e.updateCore (withdraw · id)) :=
  e.proceeds_updateCore (.aside rfl rfl rfl rfl)

private theorem proceeds_destroyScript (e : Engine) (id : ScriptId) :
    e.Proceeds (e.destroyScript id) := by
  unfold destroyScript
  split
  · exact .refl e
  · next s _ =>
    have withdrawn := (e.proceeds_releaseScript s).trans (proceeds_withdraw _ id)
    have destroyed := withdrawn.trans (proceeds_destroyContext _ s.context)
    exact destroyed.trans (proceeds_flush _)

/-- The shutdown function of a script is made of steps. -/
theorem proceeds_shutDown (e : Engine) (s : Script) : e.Proceeds (e.shutDown s) := by
  unfold shutDown
  split
  · exact e.proceeds_invoke _ _ _ _
  · exact .refl e

private theorem proceeds_unload (e : Engine) (id : ScriptId) : e.Proceeds (e.unload id).1 := by
  unfold unload
  split
  · exact .refl e
  · next s _ =>
    have shut := (e.proceeds_inform ("unloading script \"" ++ s.name ++ "\"")).trans
      (proceeds_shutDown _ s)
    have destroyed := shut.trans (proceeds_destroyScript _ id)
    refine Proceeds.trans ?_ (proceeds_emit _ _)
    split
    · exact ⟨destroyed.core, destroyed.closed⟩
    · exact destroyed

/-! ### Loads -/

/-- The beginning of a load is made of steps. -/
theorem proceeds_openLoad (e : Engine) (filename : String) :
    e.Proceeds (e.openLoad filename).1 := by
  have informed := e.proceeds_inform ("loading script \"" ++ filename ++ "\"")
  exact informed.trans ⟨.aside rfl rfl rfl rfl, rfl⟩

private theorem proceeds_runSource (e : Engine) (context : ContextId) (filename : String)
    (source : ByteArray) : e.Proceeds (e.runSource context filename source).1 := by
  unfold runSource
  split
  · exact .refl e
  · next body _ =>
    have ran := e.proceeds_runIn context (sourceMachine filename body)
    split
    · next heq => rw [heq] at ran; exact ran
    · next heq => rw [heq] at ran; exact ran

private theorem proceeds_reportSource (e : Engine) (filename : String) (inFile : Bool)
    (failure : Option String) : e.Proceeds (e.reportSource filename inFile failure) := by
  unfold reportSource
  split
  · exact .refl e
  · exact e.proceeds_updateCore ((Core.proceeds_complain _ _).trans (Core.proceeds_report _ _))

/-- The run of a source is made of steps. -/
theorem proceeds_runLoad (e : Engine) (context : ContextId) (filename : String)
    (source : ByteArray) (inFile : Bool) :
    e.Proceeds (e.runLoad context filename source inFile).1 := by
  have ran := (e.proceeds_activate none).trans (proceeds_runSource _ context filename source)
  unfold runLoad
  generalize (e.updateCore (·.activate none)).runSource context filename source = result at ran ⊢
  obtain ⟨after, failure⟩ := result
  have reported := ran.trans (after.proceeds_reportSource filename inFile failure)
  exact (reported.trans (proceeds_flush _)).trans (proceeds_restore _ _)

private theorem proceeds_undoLoad (e : Engine) (context : ContextId)
    (registered : Option ScriptId) :
    e.Proceeds (e.undoLoad context registered) := by
  cases registered with
  | some id => exact e.proceeds_destroyScript id
  | none => exact e.proceeds_destroyContext context

private theorem proceeds_concludeLoad (e : Engine) (context : ContextId) (filename : String)
    (failure : Option String) (registered : Option ScriptId) :
    e.Proceeds (e.concludeLoad context filename failure registered).1 := by
  cases failure with
  | some message => exact e.proceeds_undoLoad context registered
  | none =>
    cases registered with
    | some id => exact ⟨.aside rfl rfl rfl rfl, rfl⟩
    | none => exact (e.proceeds_complain _).trans (proceeds_undoLoad _ context none)

private theorem proceeds_loadSource (e : Engine) (filename : String) (source : ByteArray)
    (inFile : Bool) : e.Proceeds (e.loadSource filename source inFile).1 := by
  have ran := (e.proceeds_openLoad filename).trans
    (proceeds_runLoad _ (e.openLoad filename).2 filename source inFile)
  have closed : e.Proceeds (((e.openLoad filename).1.runLoad (e.openLoad filename).2 filename
      source inFile).1.closeLoad).1 := ran.trans ⟨.aside rfl rfl rfl rfl, rfl⟩
  exact closed.trans (proceeds_concludeLoad _ _ filename _ _)

/-! ### Evaluations -/

private theorem proceeds_openEvaluation (e : Engine) (evaluation : Evaluation) :
    e.Proceeds (e.openEvaluation evaluation) :=
  e.proceeds_updateCore ((Core.proceeds_flush _).trans (.step (.evaluation _ (some evaluation))))

private theorem proceeds_closeEvaluation (e : Engine) : e.Proceeds e.closeEvaluation.1 := by
  refine e.proceeds_flush.trans ?_
  unfold closeEvaluation
  dsimp only
  split
  · refine proceeds_updateCore _ (.trans (.step (.takeBuffer _)) (.step (.evaluation _ none)))
  · exact proceeds_updateCore _ (.step (.evaluation _ none))

private theorem proceeds_evaluated (e : Engine) (id : ScriptId) (evaluation : Evaluation)
    (arguments : List Argument) : e.Proceeds (e.evaluated id evaluation arguments) := by
  have called := (e.proceeds_openEvaluation evaluation).trans
    (proceeds_invoke _ id .ignored scratchFunction arguments)
  exact called.trans (proceeds_closeEvaluation _)

/-! ### Operations -/

/-- A deed is made of steps. -/
theorem Deed.proceeds {e e' : Engine} (d : e.Deed e') : e.Proceeds e' := by
  cases d with
  | load filename source inFile => exact e.proceeds_loadSource filename source inFile
  | unload id => exact e.proceeds_unload id
  | evaluate id evaluation arguments => exact e.proceeds_evaluated id evaluation arguments
  | print line => exact e.proceeds_print line
  | request kind item => exact ⟨.step (.request e.core kind item), rfl⟩
  | dump | files | setQuiet | setKeepEvaluation | setCheckLicense | scratch =>
    exact ⟨.aside rfl rfl rfl rfl, rfl⟩

private theorem Deeds.proceeds {e e' : Engine} (h : e.Deeds e') : e.Proceeds e' := by
  induction h with
  | refl => exact .refl e
  | tail _ d ih => exact ih.trans d.proceeds

/-- An operation that takes nothing away proceeds by steps. -/
theorem proceeds_perform (e : Engine) {op : Operation} (h : ¬op.Takes) :
    e.Proceeds (e.perform op) := by
  by_cases call : op.IsCall
  · cases op with
    | invoke script kind function arguments =>
      exact e.proceeds_invoke script kind function arguments
    | _ => exact call.elim
  · exact (e.deeds_perform call h).proceeds

/-! ### Batches -/

/-- The engine when it has taken up what is waiting of a kind as a batch. -/
def takenUp (e : Engine) (kind : RequestKind) : Engine :=
  (e.takeRequests kind).2.updateCore
    (·.note (.ran kind (.ofText (e.core.requests.pending kind))))

/-- What is waiting of a kind is taken. Unless that is nothing it is taken up as a batch, which runs
in the quiet mode that it asks for. -/
theorem runRequests_eq (e : Engine) (kind : RequestKind) :
    e.runRequests kind =
      if (e.core.requests.pending kind).isEmpty then (e.takeRequests kind).2
      else
        let batch := Batch.ofText (e.core.requests.pending kind)
        ((e.takenUp kind).withQuiet batch.quiet fun e => (e.runBatch kind batch, ())).1 := rfl

/-- The batch is worked off by deeds. -/
theorem runRequests_deeds (e : Engine) (kind : RequestKind) :
    e.core.requests.pending kind = "" ∧ e.runRequests kind = (e.takeRequests kind).2 ∨
      (e.takenUp kind).Deeds (e.runRequests kind) := by
  rw [runRequests_eq]
  split
  · next nothing => exact .inl ⟨String.isEmpty_iff.mp nothing, rfl⟩
  · exact .inr (upheld_deeds.withQuiet _ _ fun e => upheld_deeds.runBatch e kind _)

/-- The batch is worked off by steps. -/
theorem runRequests_cases (e : Engine) (kind : RequestKind) :
    e.core.requests.pending kind = "" ∧ e.runRequests kind = (e.takeRequests kind).2 ∨
      (e.takenUp kind).Proceeds (e.runRequests kind) :=
  (e.runRequests_deeds kind).imp_right Deeds.proceeds

/-- The engine without the timers that are due at a time. -/
def withoutReady (e : Engine) (now : Nat) : Engine :=
  e.updateCore fun c => { c with timers := (c.timers.takeReady now).2 }

/-- The kinds whose timers are due at a time, in the order in which their batches run. -/
def readyKinds (e : Engine) (now : Nat) : List RequestKind :=
  (e.core.timers.takeReady now).1.map Timer.kind

/-- The requests of the kinds that are due are run in the order of their timers. -/
theorem runTimers_eq (e : Engine) (now : Nat) :
    (e.runTimers now).1 = (e.readyKinds now).foldl runRequests (e.withoutReady now) := rfl

/-! ### Closing -/

private theorem closed_runRequests (e : Engine) (kind : RequestKind) :
    (e.runRequests kind).closed = e.closed := by
  rcases e.runRequests_cases kind with ⟨-, same⟩ | proceeds
  · rw [same]
    rfl
  · exact proceeds.closed

private theorem closed_runTimers (e : Engine) (now : Nat) :
    (e.runTimers now).1.closed = e.closed := by
  rw [runTimers_eq]
  refine List.foldlRecOn (motive := fun e' : Engine => e'.closed = e.closed) _ _ rfl ?_
  intro e' same kind _
  rw [closed_runRequests, same]

/-- A second close does nothing. -/
theorem close_of_closed {e : Engine} (h : e.closed = true) : e.close = e := if_pos h

/-- An engine that is closed stays so. -/
theorem closed_close (e : Engine) : e.close.closed = true := by
  unfold close
  split
  · next h => exact h
  · rfl

/-- No operation but a close closes an engine. -/
theorem closed_perform (e : Engine) {op : Operation} (h : op ≠ .close) :
    (e.perform op).closed = e.closed := by
  by_cases takes : op.Takes
  · cases op with
    | runTimers now => exact e.closed_runTimers now
    | runRequests kind => exact e.closed_runRequests kind
    | close => exact absurd rfl h
    | _ => exact takes.elim
  · exact (e.proceeds_perform takes).closed

/-- An engine that was closed stays closed. -/
theorem Evolves.closed {e₀ e : Engine} (h : e₀.Evolves e) (closed : e₀.closed = true) :
    e.closed = true := by
  induction h with
  | refl => exact closed
  | @perform e earlier op ih =>
    by_cases close : op = .close
    · rw [close]
      exact e.closed_close
    · rw [e.closed_perform close]
      exact ih
  | outside _ files environment clock ih => exact ih

end LuaHost.Engine
