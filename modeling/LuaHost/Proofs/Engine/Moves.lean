import LuaHost.Engine.Batch
import LuaHost.Engine.Evaluate
import LuaHost.Engine.Listing
import Mathlib.Logic.Relation

/-!
# The operations of an engine

The host works on an engine by operations, between which files, the environment and the time
may change. Every operation is a call of a script function or a sequence of a few kinds of moves, so
that what calls and moves preserve holds of every engine that can come about.
-/

namespace LuaHost.Engine

/-- The engine after an evaluation that the scratch script ran. -/
def evaluated (e : Engine) (id : ScriptId) (evaluation : Evaluation)
    (arguments : List Argument) : Engine :=
  ((e.openEvaluation evaluation).invoke id .ignored scratchFunction arguments).1.closeEvaluation.1

/-- What an engine does that takes no waiting request and no timer away. -/
inductive Deed : Engine → Engine → Prop where
  | load (e : Engine) (filename : String) (source : ByteArray) (inFile : Bool) :
      Deed e (e.loadSource filename source inFile).1
  | unload (e : Engine) (id : ScriptId) : Deed e (e.unload id).1
  | evaluate (e : Engine) (id : ScriptId) (evaluation : Evaluation) (arguments : List Argument) :
      Deed e (e.evaluated id evaluation arguments)
  | print (e : Engine) (line : String) : Deed e (e.updateCore (·.print line))
  | request (e : Engine) (kind : RequestKind) (item : String) : Deed e (e.request kind item)
  | dump (e : Engine) : Deed e e.dump
  | files (e : Engine) (files : FileTree) : Deed e { e with files }
  | setQuiet (e : Engine) (quiet : Bool) : Deed e (e.setQuiet quiet)
  | setKeepEvaluation (e : Engine) (keep : Bool) : Deed e (e.setKeepEvaluation keep)
  | setCheckLicense (e : Engine) (check : Bool) : Deed e (e.setCheckLicense check)
  | scratch (e : Engine) (scratch : Option ScriptId) : Deed e { e with scratch }

/-- The moves that operations are made of. -/
inductive Move : Engine → Engine → Prop where
  | deed {e e' : Engine} (d : Deed e e') : Move e e'
  | takeRequests (e : Engine) (kind : RequestKind) : Move e (e.takeRequests kind).2
  | note (e : Engine) (n : Note) : Move e (e.updateCore (·.note n))
  | takeTimers (e : Engine) (now : Nat) :
      Move e (e.updateCore fun c => { c with timers := (c.timers.takeReady now).2 })
  | discard (e : Engine) :
      Move e { e with
        core := { e.core with
          requests := .empty, timers := e.core.timers.clear, quiet := false }
        closed := true }

/-- Any number of deeds. -/
def Deeds : Engine → Engine → Prop := Relation.ReflTransGen Deed

/-- Any number of moves. -/
def Moves : Engine → Engine → Prop := Relation.ReflTransGen Move

namespace Moves

variable {a b c : Engine}

/-- No move need be made. -/
theorem refl (e : Engine) : e.Moves e := Relation.ReflTransGen.refl

/-- One way goes on where the other one ends. -/
theorem trans (h : a.Moves b) (h' : b.Moves c) : a.Moves c := Relation.ReflTransGen.trans h h'

private theorem move (h : a.Move b) : a.Moves b := .single h

private theorem then_move (h : a.Moves b) (m : b.Move c) : a.Moves c := .tail h m

end Moves

namespace Deeds

variable {a b c : Engine}

/-- No deed need be done. -/
theorem refl (e : Engine) : e.Deeds e := Relation.ReflTransGen.refl

/-- One way of deeds goes on where the other one ends. -/
theorem trans (h : a.Deeds b) (h' : b.Deeds c) : a.Deeds c := Relation.ReflTransGen.trans h h'

/-- One deed is a way. -/
theorem deed (h : a.Deed b) : a.Deeds b := .single h

/-- A deed goes on where a way ends. -/
theorem then_deed (h : a.Deeds b) (d : b.Deed c) : a.Deeds c := .tail h d

/-- Deeds are moves. -/
theorem moves (h : a.Deeds b) : a.Moves b := by
  induction h with
  | refl => exact .refl a
  | tail _ d ih => exact ih.then_move (.deed d)

end Deeds

/-! ### What operations uphold -/

/-- A relation that loads, unloads, messages and changes of files uphold, also in a quiet mode of
their own. -/
structure Upheld (R : Engine → Engine → Prop) : Prop where
  refl (e : Engine) : R e e
  trans {a b c : Engine} : R a b → R b c → R a c
  loadSource (e : Engine) (filename : String) (source : ByteArray) (inFile : Bool) :
    R e (e.loadSource filename source inFile).1
  unload (e : Engine) (id : ScriptId) : R e (e.unload id).1
  print (e : Engine) (line : String) : R e (e.updateCore (·.print line))
  files (e : Engine) (files : FileTree) : R e { e with files }
  withQuiet {α : Type} (e : Engine) (quiet : Bool) {operation : Engine → Engine × α} :
    (∀ e, R e (operation e).1) → R e (e.withQuiet quiet operation).1

namespace Upheld

variable {R : Engine → Engine → Prop} (U : Upheld R)
include U

private theorem complain (e : Engine) (message : String) :
    R e (e.updateCore (·.complain message)) :=
  U.print e _

private theorem say (e : Engine) (message : String) : R e (e.updateCore (·.say message)) :=
    U.print e _

private theorem inform (e : Engine) (message : String) : R e (e.updateCore (·.inform message)) := by
  by_cases hv : e.core.isVerbose
  · have : e.updateCore (·.inform message) = e.updateCore (·.say message) := by
      simp only [updateCore, Core.inform, hv, if_true]
    rw [this]
    exact U.say e message
  · have : e.updateCore (·.inform message) = e := by
      simp only [updateCore, Core.inform, hv, Bool.false_eq_true, if_false]
    rw [this]
    exact U.refl e

/-- It is upheld while the outcome of a change of files is taken over. -/
theorem settleFiles (e : Engine) (result : FileTree.Result) (complaint : OsError → String) :
    R e (e.settleFiles result complaint) := by
  unfold Engine.settleFiles
  split
  · exact U.files e _
  · exact U.trans (U.files e _) (U.complain _ _)

/-- What one step of a fold upholds the whole does. -/
theorem foldl {α : Type} {f : Engine → α → Engine} (h : ∀ (e : Engine) x, R e (f e x))
    (xs : List α) (e : Engine) : R e (xs.foldl f e) := by
  induction xs generalizing e with
  | nil => exact U.refl e
  | cons x xs ih => exact U.trans (h e x) (ih _)

/-! ### Loading and unloading -/

private theorem load (e : Engine) (filename : String) (code : Option String) :
    R e (e.load filename code).1 := by
  unfold Engine.load
  split
  · exact U.complain e _
  · exact U.loadSource e filename _ _

/-- It is upheld by a load in quiet mode. -/
theorem loadQuietly (e : Engine) (filename : String) (code : Option String) :
    R e (e.withQuiet true (·.load filename code)).1 :=
  U.withQuiet e true fun e => U.load e filename code

private theorem loadAll (e : Engine) (paths : List String) : R e (e.loadAll paths).1 := by
  induction paths generalizing e with
  | nil => exact U.refl e
  | cons path paths ih => exact U.trans (U.load e path none) (ih _)

private theorem autoload (e : Engine) : R e e.autoload.1 := by
  unfold Engine.autoload
  split
  · exact U.refl e
  · exact U.withQuiet e true fun e => U.loadAll e _

private theorem unloadThen {α : Type} (e : Engine) (name : String)
    {next : Engine → Script → Engine × Except Failure α}
    (h : ∀ (e : Engine) s, R e (next e s).1) : R e (e.unloadThen name next).1 := by
  unfold Engine.unloadThen
  split
  · exact U.complain e _
  · next s _ =>
    have unloaded := U.unload e s.id
    split
    · next heq => rw [heq] at unloaded; exact unloaded
    · next heq =>
      rw [heq] at unloaded
      exact U.trans (U.trans unloaded (U.inform _ _)) (h _ s)

private theorem unloadOldest (n : Nat) (e : Engine) : R e (unloadOldest n e) := by
  induction n generalizing e with
  | zero => exact U.refl e
  | succ n ih =>
    unfold Engine.unloadOldest
    split
    · exact U.refl e
    · next id _ =>
      have unloaded := U.unload e id
      split
      · next heq => rw [heq] at unloaded; exact U.trans unloaded (ih _)
      · next heq => rw [heq] at unloaded; exact unloaded

/-- It is upheld while everything is unloaded. -/
theorem unloadAll (e : Engine) : R e e.unloadAll := U.unloadOldest _ e

/-! ### Batches -/

private theorem unloadFile (e : Engine) (baseName : String) : R e (e.unloadFile baseName).1 := by
  unfold Engine.unloadFile
  split
  · exact U.unload e _
  · exact U.refl e

private theorem removeCopy (e : Engine) (path : String) (quiet : Bool) :
    R e (e.removeCopy path quiet).1 := by
  unfold Engine.removeCopy
  split
  · exact U.trans (U.files e _) (U.complain _ _)
  · next files _ =>
    have removed := U.files e files
    cases quiet with
    | true => exact removed
    | false => exact U.trans removed (U.say _ _)

private theorem removeCopies (name : String) (quiet : Bool) (n : Nat) (e : Engine) :
    R e (removeCopies name quiet n e).1 := by
  induction n generalizing e with
  | zero => exact U.refl e
  | succ n ih =>
    have removed := U.removeCopy e (e.search name) quiet
    unfold Engine.removeCopies
    dsimp only
    split
    · exact U.refl e
    · split
      · exact U.trans removed (ih (e.removeCopy (e.search name) quiet).1)
      · dsimp only
        exact removed

/-- It is upheld while the old copies of a script are removed. -/
theorem retire (batch : Batch) (e : Engine) (name : String) : R e (retire batch e name).1 := by
  have unloaded := U.unloadFile e name
  have removed := U.removeCopies name batch.quiet 2 (e.unloadFile name).1
  unfold Engine.retire removeInstalled
  exact U.trans unloaded removed

private theorem startInstalled (batch : Batch) (e : Engine) (base target : String)
    (wasLoaded existed : Bool) : R e (startInstalled batch e base target wasLoaded existed) := by
  have linked : R e (if batch.autoload then e.linkInstalled base else e) := by
    split
    · exact U.settleFiles e _ _
    · exact U.refl e
  unfold Engine.startInstalled
  dsimp only
  split
  · exact U.trans linked (U.load _ target none)
  · exact linked

/-- It is upheld by one installation. -/
theorem installFile (batch : Batch) (e : Engine) (source : String) :
    R e (installFile batch e source) := by
  unfold Engine.installFile
  split
  · exact U.complain e _
  · next base _ =>
    have retired := U.retire batch e base
    dsimp only
    split
    · exact U.trans (U.trans retired (U.files _ _)) (U.complain _ _)
    · exact U.trans (U.trans retired (U.files _ _)) (U.startInstalled batch _ base _ _ _)

private theorem install (e : Engine) (batch : Batch) : R e (e.install batch) := by
  unfold Engine.install
  split
  · exact U.trans (U.files e _) (U.complain _ _)
  · exact U.trans (U.files e _) (U.foldl (U.installFile batch) _ _)

/-- It is upheld by one removal. -/
theorem removeFile (batch : Batch) (e : Engine) (name : String) :
    R e (removeFile batch e name) := by
  have retired := U.retire batch e name
  unfold Engine.removeFile
  dsimp only
  split
  · exact retired
  · exact U.trans retired (U.complain _ _)

private theorem updateLink (batch : Batch) (e : Engine) (name : String) :
    R e (updateLink batch e name) := by
  unfold Engine.updateLink
  split
  · exact U.settleFiles e _ _
  · exact U.refl e

/-- It is upheld by a batch of requests. -/
theorem runBatch (e : Engine) (kind : RequestKind) (batch : Batch) :
    R e (e.runBatch kind batch) := by
  cases kind with
  | install => exact U.install e batch
  | remove => exact U.foldl (U.removeFile batch) _ e
  | autoload => exact U.foldl (U.updateLink batch) _ e

/-! ### Lists that are shown -/

private theorem displayList (e : Engine) (filter : Option String) (full : Bool) :
    R e (e.displayList filter full) := U.foldl (fun e line => U.print e line) _ e

private theorem displayNames (e : Engine) : R e e.displayNames := by
  unfold Engine.displayNames
  dsimp only
  split
  · exact U.refl e
  · exact U.print e _

end Upheld

/-- Deeds are upheld by themselves. -/
theorem upheld_deeds : Upheld Deeds where
  refl := .refl
  trans := .trans
  loadSource e filename source inFile := .deed (.load e filename source inFile)
  unload e id := .deed (.unload e id)
  print e line := .deed (.print e line)
  files e files := .deed (.files e files)
  withQuiet e quiet _ h := ((Deeds.deed (.setQuiet e quiet)).trans (h _)).then_deed (.setQuiet _ _)

/-! ### Evaluations -/

private theorem deeds_ensureScratch (e : Engine) : e.Deeds e.ensureScratch.1 := by
  have loaded := upheld_deeds.loadQuietly e scratchName (some scratchSource)
  unfold ensureScratch
  cases hs : e.scratch with
  | some id => exact .refl e
  | none =>
    generalize e.withQuiet true (·.load scratchName (some scratchSource)) = result at loaded
    obtain ⟨e₁, cause | id⟩ := result
    · exact loaded
    · exact loaded.then_deed (.scratch e₁ (some id))

private theorem deeds_dropScratch (e : Engine) (id : ScriptId) : e.Deeds (e.dropScratch id) := by
  unfold dropScratch
  split
  · exact .refl e
  · exact (upheld_deeds.withQuiet e true fun e => upheld_deeds.unload e id).then_deed
      (.scratch _ none)

/-- An evaluation has the scratch script at hand, calls it, and drops it unless it is to be kept. -/
theorem evaluate_eq (e : Engine) (evaluation : Evaluation) (code : String) :
    (e.evaluate evaluation code).1 =
      match e.ensureScratch with
      | (e, .error _) => e
      | (e, .ok id) => (e.evaluated id evaluation [.text code]).dropScratch id := by
  unfold evaluate
  rcases e.ensureScratch with ⟨e₁, failure | id⟩
  · rfl
  · dsimp only [evaluated]

private theorem deeds_evaluate (e : Engine) (evaluation : Evaluation) (code : String) :
    e.Deeds (e.evaluate evaluation code).1 := by
  have ensured := e.deeds_ensureScratch
  rw [evaluate_eq]
  split
  · next heq => rw [heq] at ensured; exact ensured
  · next e₁ id heq =>
    rw [heq] at ensured
    have ran := ensured.then_deed (.evaluate e₁ id evaluation [.text code])
    exact ran.trans (deeds_dropScratch _ id)

/-- An evaluation to a text is one that keeps its output. -/
theorem evaluateToText_fst (e : Engine) (code : String) :
    (e.evaluateToText code).1 = (e.evaluate ⟨none, false, false⟩ code).1 := by
  unfold evaluateToText
  split
  · next heq => rw [heq]
  · next heq => rw [heq]

/-! ### Taking requests and timers -/

private theorem moves_runRequests (e : Engine) (kind : RequestKind) :
    e.Moves (e.runRequests kind) := by
  have taken := Moves.move (.takeRequests e kind)
  unfold runRequests
  dsimp only
  split
  · exact taken
  · have noted := taken.then_move (.note _ (.ran kind (.ofText (e.takeRequests kind).1)))
    exact noted.trans (upheld_deeds.withQuiet _ _ fun e => upheld_deeds.runBatch e kind _).moves

private theorem moves_runTimers (e : Engine) (now : Nat) : e.Moves (e.runTimers now).1 := by
  have taken := Moves.move (.takeTimers e now)
  have all (kinds : List RequestKind) (e : Engine) : e.Moves (kinds.foldl runRequests e) := by
    induction kinds generalizing e with
    | nil => exact .refl e
    | cons kind kinds ih => exact (e.moves_runRequests kind).trans (ih _)
  exact taken.trans (all _ _)

private theorem moves_close (e : Engine) : e.Moves e.close := by
  unfold close
  split
  · exact .refl e
  · have quiet := Deeds.deed (.setQuiet e true)
    dsimp only
    split
    · next id _ =>
      have dropped := (quiet.then_deed (.scratch _ none)).trans (upheld_deeds.unload _ id)
      exact (dropped.trans (upheld_deeds.unloadAll _)).moves.then_move (.discard _)
    · exact (quiet.trans (upheld_deeds.unloadAll _)).moves.then_move (.discard _)

/-! ### Operations -/

/-- What a host can ask of an engine. -/
inductive Operation where
  | load (filename : String) (code : Option String)
  | loadNamed (name : String)
  | reload (name : String)
  | autoload
  | unload (id : ScriptId)
  | unloadNamed (name : String)
  | unloadAll
  | invoke (script : ScriptId) (kind : ResultKind) (function : String)
      (arguments : List Argument)
  | evaluate (evaluation : Evaluation) (code : String)
  | evaluateToText (code : String)
  | request (kind : RequestKind) (item : String)
  | handleSignal (name data : String)
  | runTimers (now : Nat)
  | runRequests (kind : RequestKind)
  | setQuiet (quiet : Bool)
  | setKeepEvaluation (keep : Bool)
  | setCheckLicense (check : Bool)
  | displayList (filter : Option String) (full : Bool)
  | displayNames
  | displayInterpreter
  | dump
  | close

/-- The engine after an operation. -/
def perform (e : Engine) : Operation → Engine
  | .load filename code => (e.load filename code).1
  | .loadNamed name => (e.loadNamed name).1
  | .reload name => (e.reload name).1
  | .autoload => e.autoload.1
  | .unload id => (e.unload id).1
  | .unloadNamed name => (e.unloadNamed name).1
  | .unloadAll => e.unloadAll
  | .invoke script kind function arguments => (e.invoke script kind function arguments).1
  | .evaluate evaluation code => (e.evaluate evaluation code).1
  | .evaluateToText code => (e.evaluateToText code).1
  | .request kind item => e.request kind item
  | .handleSignal name data => (e.handleSignal name data).1
  | .runTimers now => (e.runTimers now).1
  | .runRequests kind => e.runRequests kind
  | .setQuiet quiet => e.setQuiet quiet
  | .setKeepEvaluation keep => e.setKeepEvaluation keep
  | .setCheckLicense check => e.setCheckLicense check
  | .displayList filter full => e.displayList filter full
  | .displayNames => e.displayNames
  | .displayInterpreter => e.displayInterpreter
  | .dump => e.dump
  | .close => e.close

private theorem deeds_handleSignal (e : Engine) (name data : String) :
    e.Deeds (e.handleSignal name data).1 := by
  unfold handleSignal
  split
  · next core heq =>
    unfold Core.handleSignal? at heq
    split at heq
    · cases heq
    · split at heq
      · cases heq; exact .deed (.request e _ data)
      · split at heq
        · cases heq; exact .deed (.dump e)
        · cases heq
  · exact .refl e

/-- An operation is a call. -/
def Operation.IsCall : Operation → Prop
  | .invoke .. => True
  | _ => False

/-- An operation may take waiting requests or timers away. -/
def Operation.Takes : Operation → Prop
  | .runTimers _ | .runRequests _ | .close => True
  | _ => False

/-- An operation loads, unloads or shows what is loaded, and does nothing else. -/
def Operation.IsPlain : Operation → Prop
  | .load .. | .loadNamed _ | .reload _ | .autoload | .unload _ | .unloadNamed _ | .unloadAll
  | .displayList .. | .displayNames | .displayInterpreter => True
  | _ => False

/-- It is upheld by every operation that is made of deeds. -/
theorem Upheld.perform {R : Engine → Engine → Prop} (U : Upheld R) (e : Engine) {op : Operation}
    (plain : op.IsPlain) : R e (e.perform op) := by
  cases op with
  | load filename code => exact U.load e filename code
  | loadNamed name => exact U.load e _ none
  | reload name => exact U.unloadThen e name fun e s => U.load e s.filename none
  | autoload => exact U.autoload e
  | unload id => exact U.unload e id
  | unloadNamed name => exact U.unloadThen e name fun e _ => U.refl e
  | unloadAll => exact U.unloadAll e
  | displayList filter full => exact U.displayList e filter full
  | displayNames => exact U.displayNames e
  | displayInterpreter => exact U.say e _
  | _ => exact plain.elim

/-- Every operation but a call that takes nothing away is a sequence of deeds. -/
theorem deeds_perform (e : Engine) {op : Operation} (call : ¬op.IsCall) (takes : ¬op.Takes) :
    e.Deeds (e.perform op) := by
  by_cases plain : op.IsPlain
  · exact upheld_deeds.perform e plain
  · cases op with
    | evaluate evaluation code => exact e.deeds_evaluate evaluation code
    | evaluateToText code =>
      rw [perform, evaluateToText_fst]
      exact e.deeds_evaluate _ code
    | request kind item => exact .deed (.request e kind item)
    | handleSignal name data => exact e.deeds_handleSignal name data
    | setQuiet quiet => exact .deed (.setQuiet e quiet)
    | setKeepEvaluation keep => exact .deed (.setKeepEvaluation e keep)
    | setCheckLicense check => exact .deed (.setCheckLicense e check)
    | dump => exact .deed (.dump e)
    | invoke => exact absurd trivial call
    | runTimers | runRequests | close => exact absurd trivial takes
    | _ => exact absurd trivial plain

/-- Every operation but a call is a sequence of moves. -/
theorem moves_perform (e : Engine) {op : Operation} (call : ¬op.IsCall) :
    e.Moves (e.perform op) := by
  by_cases takes : op.Takes
  · cases op with
    | runTimers now => exact e.moves_runTimers now
    | runRequests kind => exact e.moves_runRequests kind
    | close => exact e.moves_close
    | _ => exact takes.elim
  · exact (e.deeds_perform call takes).moves

/-- An operation is a call of a script function or a sequence of moves. -/
theorem perform_cases (e : Engine) (op : Operation) :
    (∃ script kind function arguments, op = .invoke script kind function arguments) ∨
      ¬op.IsCall ∧ e.Moves (e.perform op) := by
  by_cases call : op.IsCall
  · cases op with
    | invoke script kind function arguments => exact .inl ⟨script, kind, function, arguments, rfl⟩
    | _ => exact call.elim
  · exact .inr ⟨call, e.moves_perform call⟩

/-- The engines that come about when a host works on one. Between two operations files, the
environment and the time may change. -/
inductive Evolves (e : Engine) : Engine → Prop where
  | refl : Evolves e e
  | perform {e' : Engine} (h : Evolves e e') (op : Operation) : Evolves e (e'.perform op)
  | outside {e' : Engine} (h : Evolves e e') (files : FileTree) (environment : Environment)
      (clock : Nat) : Evolves e ({ e' with files, environment }.setClock clock)

/-- An engine that comes about when a host works on a new one. -/
inductive Reachable (e : Engine) : Prop where
  | of_new (options : Options) (license : String) (files : FileTree) (environment : Environment)
      (budget : Nat) (h : (new options license files environment budget).Evolves e) : Reachable e

end LuaHost.Engine
