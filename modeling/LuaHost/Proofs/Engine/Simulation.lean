import LuaHost.Engine.Evaluate
import LuaHost.Proofs.Core.Simulation

/-!
# Engines that scripts cannot tell apart

A relation between cores that scripts cannot tell apart is carried through calls, teardowns and
loads: whatever an engine does with the one core, it does with the other, and with the same result.
-/

namespace LuaHost

namespace Engine

/-- The engine with another core. -/
def withCore (e : Engine) (core : Core) : Engine := { e with core }

/-- The second engine is the first one with a related core. -/
def Alike (R : Core → Core → Prop) (e f : Engine) : Prop := ∃ d, R e.core d ∧ f = e.withCore d

/-- The results are the same, and the engines are alike. -/
def AlikeWith {α : Type} (R : Core → Core → Prop) (x y : Engine × α) : Prop :=
  ∃ d, R x.1.core d ∧ y = (x.1.withCore d, x.2)

private theorem updateCore_withCore (e : Engine) (d : Core) (f : Core → Core) :
    (e.withCore d).updateCore f = (e.updateCore f).withCore (f d) := rfl

private theorem setHeap_withCore (e : Engine) (d : Core) (context : ContextId) (heap : Lua.Heap) :
    (e.withCore d).setHeap context heap = (e.setHeap context heap).withCore d := rfl

private theorem heapOf_withCore (e : Engine) (d : Core) (context : ContextId) :
    (e.withCore d).heapOf context = e.heapOf context := rfl

private theorem alike_updateCore {R : Core → Core → Prop} (e : Engine) {d : Core} {f : Core → Core}
    (h : R (f e.core) (f d)) : Alike R (e.updateCore f) ((e.withCore d).updateCore f) :=
  ⟨f d, h, rfl⟩

end Engine

namespace Core.Simulation

open Engine (Alike AlikeWith withCore alike_updateCore)
open Engine (updateCore_withCore setHeap_withCore heapOf_withCore)
open Lua (Heap Machine)

variable {R : Core → Core → Prop} (S : Simulation R) {e : Engine} {d : Core}
include S

/-- Both engines find the same script. -/
theorem script? (h : R e.core d) (id : ScriptId) : (e.withCore d).script? id = e.script? id :=
  (S.same (·.registry.get? id) h fun _ => rfl).symm

private theorem active (h : R e.core d) : d.active = e.core.active :=
  (S.same Core.active h fun _ => rfl).symm

/-! ### Calls -/

private theorem runInWith (step : Machine → Lua.Step) (h : R e.core d) (context : ContextId)
    (setUp : Heap → Machine) :
    AlikeWith R (e.runInWith step context setUp)
      ((e.withCore d).runInWith step context setUp) := by
  obtain ⟨related, result⟩ := S.runWith step e.budget h (setUp (e.heapOf context))
  refine ⟨_, related, ?_⟩
  show ({ e with core := (d.runWith step e.budget (setUp (e.heapOf context))).1 }.setHeap context
    (d.runWith step e.budget (setUp (e.heapOf context))).2.1,
      (d.runWith step e.budget (setUp (e.heapOf context))).2.2) = _
  rw [← result]
  rfl

private theorem runIn (h : R e.core d) (context : ContextId) (setUp : Heap → Machine) :
    AlikeWith R (e.runIn context setUp) ((e.withCore d).runIn context setUp) :=
  S.runInWith Machine.step h context setUp

private theorem global (h : R e.core d) (context : ContextId) (name : String) :
    AlikeWith R (e.global context name) ((e.withCore d).global context name) := by
  unfold Engine.global
  rw [heapOf_withCore]
  dsimp only
  split
  · exact ⟨d, h, rfl⟩
  · next f object _ =>
    obtain ⟨d₁, h₁, ran⟩ := S.runIn h context fun heap =>
      Lua.Interpreter.start heap f [object, .text name]
    rw [ran]
    generalize (e.runIn context fun heap =>
      Lua.Interpreter.start heap f [object, .text name]) = result at h₁ ⊢
    obtain ⟨e₁, vs | message⟩ := result
    · exact ⟨d₁, h₁, rfl⟩
    · exact ⟨d₁, h₁, rfl⟩
  · exact ⟨d, h, rfl⟩
  · exact ⟨d, h, rfl⟩

private theorem apply (h : R e.core d) (context : ContextId) (f : Lua.Value)
    (arguments : List Argument) :
    AlikeWith R (e.apply context f arguments) ((e.withCore d).apply context f arguments) :=
  S.runIn h context _

private theorem settleOutcome (h : R e.core d) (context : ContextId) (kind : ResultKind)
    (function : String) (outcome : Lua.Outcome) :
    AlikeWith R (e.settleOutcome context kind function outcome)
      ((e.withCore d).settleOutcome context kind function outcome) := by
  unfold Engine.settleOutcome
  rw [heapOf_withCore]
  split
  · exact ⟨_, S.report h _, rfl⟩
  · split
    · exact ⟨d, h, rfl⟩
    · exact ⟨d, h, rfl⟩
    · exact ⟨_, S.complain h _, rfl⟩

private theorem invokeActive (h : R e.core d) (context : ContextId) (kind : ResultKind)
    (function : String) (arguments : List Argument) :
    AlikeWith R (e.invokeActive context kind function arguments)
      ((e.withCore d).invokeActive context kind function arguments) := by
  obtain ⟨d₁, h₁, found⟩ := S.global h context function
  unfold Engine.invokeActive
  rw [found]
  generalize e.global context function = result at h₁ ⊢
  obtain ⟨e₁, f⟩ := result
  dsimp only at h₁ ⊢
  split
  · exact ⟨_, S.complain h₁ _, rfl⟩
  · obtain ⟨d₂, h₂, applied⟩ := S.apply h₁ context f arguments
    rw [applied]
    generalize e₁.apply context f arguments = result at h₂ ⊢
    obtain ⟨e₂, outcome⟩ := result
    dsimp only at h₂ ⊢
    obtain ⟨d₃, h₃, settled⟩ := S.settleOutcome (e := e₂.updateCore Core.flush) (S.flush h₂)
      context kind function outcome
    rw [updateCore_withCore, settled]
    generalize (e₂.updateCore Core.flush).settleOutcome context kind function outcome = result
      at h₃ ⊢
    obtain ⟨e₃, answer⟩ := result
    dsimp only at h₃ ⊢
    split
    · exact ⟨_, S.flush (S.complain h₃ _), rfl⟩
    · exact ⟨_, S.flush h₃, rfl⟩

/-- Both engines call a function with the same result. -/
theorem invoke (h : R e.core d) (script : ScriptId) (kind : ResultKind) (function : String)
    (arguments : List Argument) :
    AlikeWith R (e.invoke script kind function arguments)
      ((e.withCore d).invoke script kind function arguments) := by
  unfold Engine.invoke
  rw [S.script? h]
  split
  · exact ⟨_, S.complain h _, rfl⟩
  · split
    · exact ⟨_, S.complain h _, rfl⟩
    · next s _ =>
      obtain ⟨d₁, h₁, called⟩ := S.invokeActive (e := e.updateCore (·.activate (some script)))
        (S.activate h _) s.context kind function arguments
      rw [updateCore_withCore, called]
      refine ⟨_, S.restore h₁ e.core.active, ?_⟩
      rw [← S.active h]
      rfl

/-! ### Teardown -/

private theorem release (h : R e.core d) (context : ContextId) :
    Alike R (e.release context) ((e.withCore d).release context) := by
  obtain ⟨d₁, h₁, once⟩ := S.runIn (e := e.setHeap context (Engine.forget (e.heapOf context))) h
    context Lua.Interpreter.collecting
  obtain ⟨d₂, h₂, twice⟩ := S.runIn h₁ context Lua.Interpreter.collecting
  refine ⟨d₂, h₂, ?_⟩
  simp only [Engine.release, heapOf_withCore, setHeap_withCore, once, twice]

private theorem closeState (h : R e.core d) (context : ContextId) :
    Alike R (e.closeState context) ((e.withCore d).closeState context) := by
  obtain ⟨d₁, h₁, collected⟩ := S.runIn h context Lua.Interpreter.collecting
  obtain ⟨d₂, h₂, closed⟩ := S.runInWith Machine.closingStep h₁ context Lua.Interpreter.closing
  refine ⟨d₂, h₂, ?_⟩
  simp only [Engine.closeState, collected, closed]

private theorem destroyContext (h : R e.core d) (context : ContextId) :
    Alike R (e.destroyContext context) ((e.withCore d).destroyContext context) := by
  obtain ⟨d₁, h₁, released⟩ := S.release h context
  obtain ⟨d₂, h₂, closed⟩ := S.closeState (e := (e.release context).updateCore Core.flush)
    (S.flush h₁) context
  unfold Engine.destroyContext
  rw [released, updateCore_withCore, closed]
  exact ⟨_, S.silent h₂ (f := fun c => { c with destroyed := c.destroyed + 1 }) {}, rfl⟩

private theorem releaseScript (h : R e.core d) (s : Script) :
    Alike R (e.releaseScript s) ((e.withCore d).releaseScript s) := by
  obtain ⟨d₁, h₁, released⟩ := S.release (e := e.updateCore (·.activate (some s.id)))
    (S.activate h _) s.context
  unfold Engine.releaseScript
  rw [updateCore_withCore, released]
  refine ⟨_, S.restore (S.flush h₁) e.core.active, ?_⟩
  rw [← S.active h]
  rfl

/-- Both engines take a script out and destroy its context. -/
theorem destroyScript (h : R e.core d) (id : ScriptId) :
    Alike R (e.destroyScript id) ((e.withCore d).destroyScript id) := by
  unfold Engine.destroyScript
  rw [S.script? h]
  split
  · exact ⟨d, h, rfl⟩
  · next s _ =>
    obtain ⟨d₁, h₁, released⟩ := S.releaseScript h s
    have withdrawn := S.silent h₁ (f := (Engine.withdraw · id)) {}
    obtain ⟨d₂, h₂, destroyed⟩ := S.destroyContext
      (e := (e.releaseScript s).updateCore (Engine.withdraw · id)) withdrawn s.context
    rw [released, updateCore_withCore, destroyed]
    exact alike_updateCore _ (S.flush h₂)

/-- Both engines shut a script down. -/
theorem shutDown (h : R e.core d) (s : Script) :
    Alike R (e.shutDown s) ((e.withCore d).shutDown s) := by
  unfold Engine.shutDown
  split
  · obtain ⟨d₁, h₁, called⟩ := S.invoke h s.id .integer _ []
    exact ⟨d₁, h₁, congrArg Prod.fst called⟩
  · exact ⟨d, h, rfl⟩

/-- Both engines unload a script. -/
theorem unload (h : R e.core d) (id : ScriptId) :
    AlikeWith R (e.unload id) ((e.withCore d).unload id) := by
  unfold Engine.unload
  rw [S.script? h]
  split
  · exact ⟨d, h, rfl⟩
  · next s _ =>
    have informed : R (e.core.inform ("unloading script \"" ++ s.name ++ "\""))
        (d.inform ("unloading script \"" ++ s.name ++ "\"")) := S.inform (.unloading s.name) h
    obtain ⟨d₁, h₁, shut⟩ := S.shutDown
      (e := e.updateCore (·.inform ("unloading script \"" ++ s.name ++ "\""))) informed s
    obtain ⟨d₂, h₂, destroyed⟩ := S.destroyScript h₁ id
    dsimp only
    rw [updateCore_withCore, shut, destroyed]
    generalize ((e.updateCore (·.inform ("unloading script \"" ++ s.name ++ "\""))).shutDown
      s).destroyScript id = e₁ at h₂ ⊢
    by_cases scratch : e₁.scratch = some id
    · have scratch' : (e₁.withCore d₂).scratch = some id := scratch
      rw [if_pos scratch, if_pos scratch']
      exact ⟨_, S.emit h₂ (Event.isPlain_signal _ _ _), rfl⟩
    · have scratch' : (e₁.withCore d₂).scratch ≠ some id := scratch
      rw [if_neg scratch, if_neg scratch']
      exact ⟨_, S.emit h₂ (Event.isPlain_signal _ _ _), rfl⟩

/-! ### Loads -/

private theorem createContext (h : R e.core d) :
    AlikeWith R e.createContext (e.withCore d).createContext := by
  refine ⟨_, S.silent h (f := fun c => { c with created := c.created + 1 }) {}, ?_⟩
  have created : d.created = e.core.created := (S.same Core.created h fun _ => rfl).symm
  simp only [Engine.createContext, withCore, created]

private theorem openLoad (h : R e.core d) (filename : String) :
    AlikeWith R (e.openLoad filename) ((e.withCore d).openLoad filename) := by
  have informed : R (e.core.inform ("loading script \"" ++ filename ++ "\""))
      (d.inform ("loading script \"" ++ filename ++ "\"")) := S.inform (.loading filename) h
  obtain ⟨d₁, h₁, created⟩ := S.createContext
    (e := e.updateCore (·.inform ("loading script \"" ++ filename ++ "\""))) informed
  unfold Engine.openLoad
  rw [updateCore_withCore, created]
  exact ⟨_, S.silent h₁ (f := fun c => { c with loading := some ⟨filename, _, none⟩ }) {}, rfl⟩

private theorem runSource (h : R e.core d) (context : ContextId) (filename : String)
    (source : ByteArray) :
    AlikeWith R (e.runSource context filename source)
      ((e.withCore d).runSource context filename source) := by
  unfold Engine.runSource
  split
  · exact ⟨d, h, rfl⟩
  · next body _ =>
    obtain ⟨d₁, h₁, ran⟩ := S.runIn h context (Engine.sourceMachine filename body)
    rw [ran]
    generalize e.runIn context (Engine.sourceMachine filename body) = result at h₁ ⊢
    obtain ⟨e₁, vs | message⟩ := result
    · exact ⟨d₁, h₁, rfl⟩
    · exact ⟨d₁, h₁, rfl⟩

private theorem reportSource (h : R e.core d) (filename : String) (inFile : Bool)
    (failure : Option String) :
    Alike R (e.reportSource filename inFile failure)
      ((e.withCore d).reportSource filename inFile failure) := by
  cases failure with
  | none => exact ⟨d, h, rfl⟩
  | some message => exact ⟨_, S.report (S.complain h _) message, rfl⟩

private theorem runLoad (h : R e.core d) (context : ContextId) (filename : String)
    (source : ByteArray) (inFile : Bool) :
    AlikeWith R (e.runLoad context filename source inFile)
      ((e.withCore d).runLoad context filename source inFile) := by
  obtain ⟨d₁, h₁, ran⟩ := S.runSource (e := e.updateCore (·.activate none)) (S.activate h none)
    context filename source
  unfold Engine.runLoad
  rw [updateCore_withCore, ran]
  generalize (e.updateCore (·.activate none)).runSource context filename source = result at h₁ ⊢
  obtain ⟨e₁, failure⟩ := result
  dsimp only at h₁ ⊢
  obtain ⟨d₂, h₂, reported⟩ := S.reportSource h₁ filename inFile failure
  rw [reported]
  refine ⟨_, S.restore (S.flush h₂) e.core.active, ?_⟩
  rw [← S.active h]
  rfl

private theorem closeLoad (h : R e.core d) : AlikeWith R e.closeLoad (e.withCore d).closeLoad := by
  have registered := S.same (·.loading.bind Loading.registered) h fun _ => rfl
  refine ⟨_, S.silent h (f := fun c => { c with loading := none }) {}, ?_⟩
  exact Prod.ext rfl registered.symm

private theorem undoLoad (h : R e.core d) (context : ContextId) (registered : Option ScriptId) :
    Alike R (e.undoLoad context registered) ((e.withCore d).undoLoad context registered) := by
  cases registered with
  | some id => exact S.destroyScript h id
  | none => exact S.destroyContext h context

private theorem completeLoad (h : R e.core d) (id : ScriptId) (filename : String) :
    Alike R (e.completeLoad id filename) ((e.withCore d).completeLoad id filename) := by
  have complete := S.silent h (f := fun c => { c with registry := c.registry.setComplete id }) {}
  have found := S.script?
    (e := e.updateCore fun c => { c with registry := c.registry.setComplete id }) complete id
  simp only [Engine.completeLoad, updateCore_withCore, found]
  exact ⟨_, S.emit (S.emit complete (Event.isPlain_callbacks _))
    (Event.isPlain_signal _ _ _), rfl⟩

private theorem concludeLoad (h : R e.core d) (context : ContextId) (filename : String)
    (failure : Option String) (registered : Option ScriptId) :
    AlikeWith R (e.concludeLoad context filename failure registered)
      ((e.withCore d).concludeLoad context filename failure registered) := by
  cases failure with
  | some message =>
    obtain ⟨d₁, h₁, undone⟩ := S.undoLoad h context registered
    exact ⟨d₁, h₁, by rw [Engine.concludeLoad, undone]; rfl⟩
  | none =>
    cases registered with
    | some id =>
      obtain ⟨d₁, h₁, completed⟩ := S.completeLoad h id filename
      exact ⟨d₁, h₁, by rw [Engine.concludeLoad, completed]; rfl⟩
    | none =>
      obtain ⟨d₁, h₁, undone⟩ := S.undoLoad
        (e := e.updateCore (·.complain (Failure.unregistered filename).message))
        (S.complain h _) context none
      exact ⟨d₁, h₁, by rw [Engine.concludeLoad, updateCore_withCore, undone]; rfl⟩

private theorem loadSource (h : R e.core d) (filename : String) (source : ByteArray)
    (inFile : Bool) :
    AlikeWith R (e.loadSource filename source inFile)
      ((e.withCore d).loadSource filename source inFile) := by
  obtain ⟨d₁, h₁, opened⟩ := S.openLoad h filename
  obtain ⟨d₂, h₂, ran⟩ := S.runLoad h₁ (e.openLoad filename).2 filename source inFile
  obtain ⟨d₃, h₃, closed⟩ := S.closeLoad h₂
  unfold Engine.loadSource
  simp only [opened, ran, closed]
  exact S.concludeLoad h₃ _ filename _ _

/-- Both engines load a script. -/
theorem load (h : R e.core d) (filename : String) (code : Option String) :
    AlikeWith R (e.load filename code) ((e.withCore d).load filename code) := by
  have source : (e.withCore d).sourceOf filename code = e.sourceOf filename code := by
    cases code <;> rfl
  unfold Engine.load
  rw [source]
  split
  · exact ⟨_, S.complain h _, rfl⟩
  · exact S.loadSource h filename _ _

/-- What runs quietly on both sides does so alike, and each side is left in its own mode. -/
theorem withQuiet {α : Type} (h : R e.core d) {operation : Engine → Engine × α}
    (carried : ∀ {e : Engine} {d : Core}, R e.core d →
      AlikeWith R (operation e) (operation (e.withCore d))) :
    AlikeWith R (e.withQuiet true operation) ((e.withCore d).withQuiet true operation) := by
  have hushed : R (e.setQuiet true).core { d with quiet := true } := S.hush h
  obtain ⟨d₁, h₁, done⟩ := carried hushed
  have same : (e.withCore d).setQuiet true = (e.setQuiet true).withCore { d with quiet := true } :=
    rfl
  unfold Engine.withQuiet
  rw [same, done]
  exact ⟨{ d₁ with quiet := d.quiet }, S.putBack h h₁, rfl⟩

private theorem loadScratch (h : R e.core d) :
    AlikeWith R (e.withQuiet true (·.load Engine.scratchName (some Engine.scratchSource)))
      ((e.withCore d).withQuiet true (·.load Engine.scratchName (some Engine.scratchSource))) :=
  S.withQuiet h fun related => S.load related Engine.scratchName (some Engine.scratchSource)

/-- The scratch script is there on both sides, or cannot be loaded on either. -/
theorem ensureScratch (h : R e.core d) :
    AlikeWith R e.ensureScratch (e.withCore d).ensureScratch := by
  unfold Engine.ensureScratch
  cases hs : e.scratch with
  | some id => exact ⟨d, h, by simp only [withCore, hs]⟩
  | none =>
    obtain ⟨d₁, h₁, loaded⟩ := S.loadScratch h
    have missing : (e.withCore d).scratch = none := hs
    rw [missing, loaded]
    generalize e.withQuiet true (·.load Engine.scratchName (some Engine.scratchSource)) = result
      at h₁ ⊢
    obtain ⟨e₁, cause | id⟩ := result
    · exact ⟨d₁, h₁, rfl⟩
    · exact ⟨d₁, h₁, rfl⟩

/-- Both engines drop the scratch script unless it is to be kept. -/
theorem dropScratch (h : R e.core d) (id : ScriptId) :
    Alike R (e.dropScratch id) ((e.withCore d).dropScratch id) := by
  have options : (e.withCore d).core.options = e.core.options :=
    (S.same Core.options h fun _ => rfl).symm
  obtain ⟨d₁, h₁, unloaded⟩ := S.withQuiet h fun related => S.unload related id
  unfold Engine.dropScratch
  rw [options, unloaded]
  split
  · exact ⟨d, h, rfl⟩
  · exact ⟨d₁, h₁, rfl⟩

end Core.Simulation

end LuaHost
