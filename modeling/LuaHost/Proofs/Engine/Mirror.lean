import LuaHost.Engine.Batch
import LuaHost.Engine.Listing
import LuaHost.Proofs.Core.Quiet
import LuaHost.Proofs.Engine.Simulation

/-!
# Operations on engines that scripts cannot tell apart

What carries a relation through calls, loads and unloads carries it through all that is made of
them. Evaluations show what was printed, so that for them both sides have to print the same.
-/

namespace LuaHost

private theorem Event.isPlain_removed (path : String) :
    (Event.print none (engineName ++ ": " ++ ("script removed: " ++ path))).IsPlain where
  not_delivery := by
    rintro ⟨d, hd⟩
    cases d with
    | input | print => cases hd
    | log script text =>
      have same := congrArg String.toList (Event.print.inj hd).2
      simp [engineName] at same
  not_notice := by
    simp [isNotice, Notice.openings, engineName, List.isPrefixOf]

namespace Engine

variable {R : Core → Core → Prop}

/-- Of operations with the same result the engines are alike. -/
theorem AlikeWith.alike {α : Type} {x y : Engine × α} (h : AlikeWith R x y) : Alike R x.1 y.1 := by
  obtain ⟨d, related, rfl⟩ := h
  exact ⟨d, related, rfl⟩

private theorem Alike.bind {e e' : Engine} {f : Engine → Engine} (h : Alike R e e')
    (next : ∀ {e : Engine} {d : Core}, R e.core d → Alike R (f e) (f (e.withCore d))) :
    Alike R (f e) (f e') := by
  obtain ⟨d, related, rfl⟩ := h
  exact next related

/-- Engines that are alike are so with one result. -/
theorem Alike.pair {α : Type} {e e' : Engine} (h : Alike R e e') (x : α) :
    AlikeWith R (e, x) (e', x) := by
  obtain ⟨d, related, rfl⟩ := h
  exact ⟨d, related, rfl⟩

/-- What is made of the same results is the same. -/
theorem AlikeWith.map {α β : Type} {x y : Engine × α} (h : AlikeWith R x y) (f : α → β) :
    AlikeWith R (x.1, f x.2) (y.1, f y.2) := by
  obtain ⟨d, related, rfl⟩ := h
  exact ⟨d, related, rfl⟩

/-- What every step of a fold carries the whole does. -/
theorem alike_foldl {α : Type} {f : Engine → α → Engine} (xs : List α)
    (each : ∀ x ∈ xs, ∀ {e : Engine} {d : Core}, R e.core d →
      Alike R (f e x) (f (e.withCore d) x)) {e : Engine} {d : Core} (h : R e.core d) :
    Alike R (xs.foldl f e) (xs.foldl f (e.withCore d)) := by
  induction xs generalizing e d with
  | nil => exact ⟨d, h, rfl⟩
  | cons x xs ih =>
    obtain ⟨first, rest⟩ := List.forall_mem_cons.mp each
    exact (first h).bind (f := (xs.foldl f ·)) (ih rest)

/-- The lines of a listing are none that the engine says in its own name. -/
theorem isPlain_listing (e : Engine) (filter : Option String) (full : Bool) :
    ∀ line ∈ e.listing filter full, (Event.print none line).IsPlain := by
  have aside {line : String} (h : (engineName ++ ": ").toList.isPrefixOf line.toList = false) :
      (Event.print none line).IsPlain := Event.isPlain_print h
  have lines : ∀ line ∈ (if (e.scripts.filter fun s => filter.all (holds s.name)).isEmpty then
      ["  (none)"] else (e.scripts.filter fun s => filter.all (holds s.name)).flatMap
        (scriptLines full)), (Event.print none line).IsPlain := by
    split
    · exact List.forall_mem_singleton.mpr (aside (by decide))
    · intro line mem
      obtain ⟨s, -, mem⟩ := List.mem_flatMap.mp mem
      refine aside ?_
      cases full <;> simp [scriptLines] at mem
      · simp [mem, engineName, List.isPrefixOf]
      · rcases mem with rfl | rfl | rfl <;> simp [engineName, List.isPrefixOf]
  exact List.forall_mem_cons.mpr ⟨aside (by decide),
    List.forall_mem_cons.mpr ⟨aside (by decide), lines⟩⟩

end Engine

namespace Core.Simulation

open Engine (Alike AlikeWith withCore alike_foldl)

variable {R : Core → Core → Prop} (S : Simulation R) {e : Engine} {d : Core}
include S

private theorem alike_complain (h : R e.core d) (message : String) :
    Alike R (e.updateCore (·.complain message)) ((e.withCore d).updateCore (·.complain message)) :=
  ⟨_, S.complain h message, rfl⟩

private theorem alike_print (h : R e.core d) {line : String}
    (plain : (Event.print none line).IsPlain) :
    Alike R (e.updateCore (·.print line)) ((e.withCore d).updateCore (·.print line)) :=
  ⟨_, S.emit h plain, rfl⟩

private theorem alike_say (h : R e.core d) {message : String}
    (plain : (Event.print none (engineName ++ ": " ++ message)).IsPlain) :
    Alike R (e.updateCore (·.say message)) ((e.withCore d).updateCore (·.say message)) :=
  S.alike_print h plain

private theorem dirs (h : R e.core d) : (e.withCore d).dirs = e.dirs :=
  congrArg ScriptDirs.mk (S.same (·.options.home) h fun _ => rfl).symm

private theorem search (h : R e.core d) (name : String) :
    (e.withCore d).search name = e.search name :=
  congrArg (fun dirs : ScriptDirs => dirs.search e.environment e.files name) (S.dirs h)

/-! ### Loads and unloads by name -/

/-- Both engines load a script by name. -/
theorem loadNamed (h : R e.core d) (name : String) :
    AlikeWith R (e.loadNamed name) ((e.withCore d).loadNamed name) := by
  unfold Engine.loadNamed
  rw [S.search h]
  exact S.load h _ none

private theorem loadAll (h : R e.core d) (paths : List String) :
    AlikeWith R (e.loadAll paths) ((e.withCore d).loadAll paths) := by
  induction paths generalizing e d with
  | nil => exact ⟨d, h, rfl⟩
  | cons path paths ih =>
    obtain ⟨d₁, h₁, loaded⟩ := S.load h path none
    obtain ⟨d₂, h₂, rest⟩ := ih h₁
    unfold Engine.loadAll
    rw [loaded]
    dsimp only
    rw [rest]
    exact ⟨d₂, h₂, rfl⟩

/-- Both engines load what is to be loaded at startup. -/
theorem autoload (h : R e.core d) : AlikeWith R e.autoload (e.withCore d).autoload := by
  have files : (e.withCore d).files = e.files := rfl
  unfold Engine.autoload
  rw [S.dirs h, files]
  split
  · exact ⟨d, h, rfl⟩
  · exact S.withQuiet h fun related => S.loadAll related _

private theorem unloadThen {α : Type} (h : R e.core d) (name : String)
    {next : Engine → Script → Engine × Except Failure α}
    (carried : ∀ {e : Engine} {d : Core} (s : Script), R e.core d →
      AlikeWith R (next e s) (next (e.withCore d) s)) :
    AlikeWith R (e.unloadThen name next) ((e.withCore d).unloadThen name next) := by
  have found : (e.withCore d).find? name = e.find? name :=
    (S.same (·.registry.find? name) h fun _ => rfl).symm
  have script : (e.withCore d).script? = e.script? := funext fun id => S.script? h id
  unfold Engine.unloadThen
  rw [found, script]
  split
  · exact ⟨_, S.complain h _, rfl⟩
  · next s _ =>
    obtain ⟨d₁, h₁, unloaded⟩ := S.unload h s.id
    rw [unloaded]
    generalize e.unload s.id = result at h₁ ⊢
    obtain ⟨e₁, failure | done⟩ := result
    · exact ⟨d₁, h₁, rfl⟩
    · exact carried (e := e₁.updateCore _) s (S.inform (.unloaded name) h₁)

/-- Both engines unload a script by name. -/
theorem unloadNamed (h : R e.core d) (name : String) :
    AlikeWith R (e.unloadNamed name) ((e.withCore d).unloadNamed name) :=
  S.unloadThen h name fun {_ d} _ related => ⟨d, related, rfl⟩

/-- Both engines reload a script. -/
theorem reload (h : R e.core d) (name : String) :
    AlikeWith R (e.reload name) ((e.withCore d).reload name) :=
  S.unloadThen h name fun s related => S.load related s.filename none

private theorem unloadOldest (n : Nat) (h : R e.core d) :
    Alike R (Engine.unloadOldest n e) (Engine.unloadOldest n (e.withCore d)) := by
  induction n generalizing e d with
  | zero => exact ⟨d, h, rfl⟩
  | succ n ih =>
    have first : (e.withCore d).core.registry.first? = e.core.registry.first? :=
      (S.same (·.registry.first?) h fun _ => rfl).symm
    unfold Engine.unloadOldest
    rw [first]
    split
    · exact ⟨d, h, rfl⟩
    · next id _ =>
      obtain ⟨d₁, h₁, unloaded⟩ := S.unload h id
      rw [unloaded]
      generalize e.unload id = result at h₁ ⊢
      obtain ⟨e₁, failure | done⟩ := result
      · exact ⟨d₁, h₁, rfl⟩
      · exact ih h₁

/-- Both engines unload everything. -/
theorem unloadAll (h : R e.core d) : Alike R e.unloadAll (e.withCore d).unloadAll := by
  have size : (e.withCore d).core.registry.size = e.core.registry.size :=
    (S.same (·.registry.size) h fun _ => rfl).symm
  unfold Engine.unloadAll
  rw [size]
  exact S.unloadOldest _ h

/-! ### Batches -/

private theorem settleFiles (h : R e.core d) (result : FileTree.Result)
    (complaint : OsError → String) :
    Alike R (e.settleFiles result complaint) ((e.withCore d).settleFiles result complaint) := by
  unfold Engine.settleFiles
  split
  · exact ⟨d, h, rfl⟩
  · next files error => exact S.alike_complain (e := { e with files }) h _

/-- Both engines unload the oldest script of a file name. -/
theorem unloadFile (h : R e.core d) (baseName : String) :
    AlikeWith R (e.unloadFile baseName) ((e.withCore d).unloadFile baseName) := by
  have found : (e.withCore d).core.registry.findByBaseName? baseName =
      e.core.registry.findByBaseName? baseName :=
    (S.same (·.registry.findByBaseName? baseName) h fun _ => rfl).symm
  unfold Engine.unloadFile
  rw [found]
  split
  · obtain ⟨d₁, h₁, unloaded⟩ := S.unload h _
    rw [unloaded]
    exact ⟨d₁, h₁, rfl⟩
  · exact ⟨d, h, rfl⟩

private theorem removeCopy (h : R e.core d) (path : String) (quiet : Bool) :
    AlikeWith R (e.removeCopy path quiet) ((e.withCore d).removeCopy path quiet) := by
  have files : (e.withCore d).files = e.files := rfl
  unfold Engine.removeCopy
  rw [files]
  split
  · exact ⟨_, S.complain h _, rfl⟩
  · next files _ =>
    cases quiet with
    | true => exact ⟨d, h, rfl⟩
    | false =>
      obtain ⟨d₁, h₁, said⟩ := S.alike_say (e := { e with files }) h (Event.isPlain_removed path)
      exact ⟨d₁, h₁, Prod.ext said rfl⟩

/-- Both engines remove the copies of a script. -/
theorem removeCopies (name : String) (quiet : Bool) (n : Nat) (h : R e.core d) :
    AlikeWith R (Engine.removeCopies name quiet n e)
      (Engine.removeCopies name quiet n (e.withCore d)) := by
  induction n generalizing e d with
  | zero => exact ⟨d, h, rfl⟩
  | succ n ih =>
    obtain ⟨d₁, h₁, removed⟩ := S.removeCopy h (e.search name) quiet
    unfold Engine.removeCopies
    rw [S.search h]
    dsimp only
    rw [removed]
    generalize e.removeCopy (e.search name) quiet = removal at h₁ ⊢
    split
    · exact ⟨d, h, rfl⟩
    · split
      · exact AlikeWith.map (ih h₁) (· + 1)
      · exact ⟨d₁, h₁, rfl⟩

private theorem retire (batch : Batch) (h : R e.core d) (name : String) :
    AlikeWith R (Engine.retire batch e name) (Engine.retire batch (e.withCore d) name) := by
  obtain ⟨d₁, h₁, unloaded⟩ := S.unloadFile h name
  obtain ⟨d₂, h₂, removed⟩ := S.removeCopies name batch.quiet 2 h₁
  unfold Engine.retire Engine.removeInstalled
  rw [unloaded]
  dsimp only
  rw [removed]
  exact ⟨d₂, h₂, rfl⟩

private theorem linkInstalled (h : R e.core d) (name : String) :
    Alike R (e.linkInstalled name) ((e.withCore d).linkInstalled name) := by
  have files : (e.withCore d).files = e.files := rfl
  unfold Engine.linkInstalled
  rw [S.dirs h, files]
  exact S.settleFiles h _ _

private theorem startInstalled (batch : Batch) (h : R e.core d) (base target : String)
    (wasLoaded existed : Bool) :
    Alike R (Engine.startInstalled batch e base target wasLoaded existed)
      (Engine.startInstalled batch (e.withCore d) base target wasLoaded existed) := by
  have linked : Alike R (if batch.autoload then e.linkInstalled base else e)
      (if batch.autoload then (e.withCore d).linkInstalled base else e.withCore d) := by
    split
    · exact S.linkInstalled h base
    · exact ⟨d, h, rfl⟩
  unfold Engine.startInstalled
  dsimp only
  split
  · exact linked.bind (f := fun e => (e.load target none).1)
      fun related => (S.load related target none).alike
  · exact linked

private theorem installFile (batch : Batch) (h : R e.core d) (source : String) :
    Alike R (Engine.installFile batch e source)
      (Engine.installFile batch (e.withCore d) source) := by
  unfold Engine.installFile
  split
  · exact S.alike_complain h _
  · next base _ =>
    obtain ⟨d₁, h₁, retired⟩ := S.retire batch h base
    rw [retired]
    generalize Engine.retire batch e base = result at h₁ ⊢
    obtain ⟨e₁, wasLoaded, existed⟩ := result
    have files : (e₁.withCore d₁).files = e₁.files := rfl
    dsimp only at h₁ ⊢
    rw [S.dirs h₁, files]
    split
    · next files error _ => exact S.alike_complain (e := { e₁ with files }) h₁ _
    · next files _ =>
      exact S.startInstalled (e := { e₁ with files }) batch h₁ base _ wasLoaded existed

private theorem install (h : R e.core d) (batch : Batch) :
    Alike R (e.install batch) ((e.withCore d).install batch) := by
  have files : (e.withCore d).files = e.files := rfl
  unfold Engine.install
  rw [S.dirs h, files]
  split
  · next files error _ => exact S.alike_complain (e := { e with files }) h _
  · next files _ =>
    exact alike_foldl (e := { e with files }) batch.names
      (fun source _ _ _ related => S.installFile batch related source) h

private theorem removeFile (batch : Batch) (h : R e.core d) (name : String) :
    Alike R (Engine.removeFile batch e name) (Engine.removeFile batch (e.withCore d) name) := by
  obtain ⟨d₁, h₁, retired⟩ := S.retire batch h name
  unfold Engine.removeFile
  rw [retired]
  dsimp only
  split
  · exact ⟨d₁, h₁, rfl⟩
  · exact S.alike_complain h₁ _

private theorem updateLink (batch : Batch) (h : R e.core d) (name : String) :
    Alike R (Engine.updateLink batch e name) (Engine.updateLink batch (e.withCore d) name) := by
  have files : (e.withCore d).files = e.files := rfl
  unfold Engine.updateLink
  rw [S.dirs h, files]
  split
  · exact S.settleFiles h _ _
  · exact ⟨d, h, rfl⟩

/-- Both engines handle a batch of requests. -/
theorem runBatch (h : R e.core d) (kind : RequestKind) (batch : Batch) :
    Alike R (e.runBatch kind batch) ((e.withCore d).runBatch kind batch) := by
  cases kind with
  | install => exact S.install h batch
  | remove =>
    exact alike_foldl batch.names (fun name _ _ _ related => S.removeFile batch related name) h
  | autoload =>
    exact alike_foldl batch.names (fun name _ _ _ related => S.updateLink batch related name) h

/-! ### Lists that are shown -/

/-- Both engines show the list of scripts. -/
theorem displayList (h : R e.core d) (filter : Option String) (full : Bool) :
    Alike R (e.displayList filter full) ((e.withCore d).displayList filter full) := by
  have scripts : (e.withCore d).scripts = e.scripts :=
    (S.same (·.registry.scripts) h fun _ => rfl).symm
  have listing : (e.withCore d).listing filter full = e.listing filter full := by
    unfold Engine.listing
    rw [scripts]
  unfold Engine.displayList
  rw [listing]
  refine alike_foldl (e.listing filter full) ?_ h
  intro line mem e₁ d₁ related
  exact S.alike_print related (e.isPlain_listing filter full line mem)

/-- Both engines show the names of scripts. -/
theorem displayNames (h : R e.core d) : Alike R e.displayNames (e.withCore d).displayNames := by
  have scripts : (e.withCore d).scripts = e.scripts :=
    (S.same (·.registry.scripts) h fun _ => rfl).symm
  unfold Engine.displayNames
  rw [scripts]
  dsimp only
  split
  · exact ⟨d, h, rfl⟩
  · refine S.alike_print h (Event.isPlain_print ?_)
    simp [engineName, List.isPrefixOf]

/-- Both engines show their interpreter. -/
theorem displayInterpreter (h : R e.core d) :
    Alike R e.displayInterpreter (e.withCore d).displayInterpreter :=
  S.alike_say h (Event.isPlain_say (by decide))

/-! ### Requests -/

/-- Both engines take a request. -/
theorem alike_request (h : R e.core d) (kind : RequestKind) (item : String) :
    Alike R (e.request kind item) ((e.withCore d).request kind item) :=
  ⟨_, S.request h kind item, rfl⟩

/-- Both engines take a signal, or neither does. -/
theorem takeSignal (h : R e.core d) (name data : String) :
    AlikeWith R (e.handleSignal name data) ((e.withCore d).handleSignal name data) := by
  have handled := S.handleSignal h name data
  have core : (e.withCore d).core = d := rfl
  unfold Engine.handleSignal
  rw [core]
  generalize e.core.handleSignal? name data = left at handled
  generalize d.handleSignal? name data = right at handled
  cases handled with
  | some related => exact ⟨_, related, rfl⟩
  | none => exact ⟨d, h, rfl⟩

end Core.Simulation

namespace Core.Mirror

open Engine (Alike AlikeWith withCore)

variable {R : Core → Core → Prop} (M : Mirror R) {e : Engine} {d : Core}
include M

private theorem output (h : R e.core d) : d.output = e.core.output :=
  (eq_of_hushed Core.output (M.hushed h) fun _ => rfl).symm

/-! ### Evaluations -/

private theorem openEvaluation (h : R e.core d) (evaluation : Evaluation) :
    Alike R (e.openEvaluation evaluation) ((e.withCore d).openEvaluation evaluation) := by
  have flushed := M.flush h
  have output : d.flush.output = e.core.flush.output :=
    M.output (e := e.updateCore Core.flush) flushed
  refine ⟨_, M.setOutput { e.core.flush.output with evaluation := some evaluation } flushed, ?_⟩
  rw [← output]
  rfl

private theorem closeEvaluation (h : R e.core d) :
    AlikeWith R e.closeEvaluation (e.withCore d).closeEvaluation := by
  have flushed := M.flush h
  have output : ((e.withCore d).updateCore Core.flush).core.output =
      (e.updateCore Core.flush).core.output := M.output (e := e.updateCore Core.flush) flushed
  unfold Engine.closeEvaluation
  dsimp only
  rw [output]
  exact ⟨_, M.setOutput _ flushed, rfl⟩

/-- An open evaluation returns the same on both sides, since both print the same. -/
theorem session (h : R e.core d) (id : ScriptId) (evaluation : Evaluation)
    (arguments : List Argument) :
    AlikeWith R
      ((e.openEvaluation evaluation).invoke id .ignored Engine.scratchFunction
        arguments).1.closeEvaluation
      (((e.withCore d).openEvaluation evaluation).invoke id .ignored Engine.scratchFunction
        arguments).1.closeEvaluation := by
  obtain ⟨d₁, h₁, opened⟩ := M.openEvaluation h evaluation
  obtain ⟨d₂, h₂, called⟩ := M.invoke h₁ id .ignored Engine.scratchFunction arguments
  rw [opened, called]
  exact M.closeEvaluation h₂

/-- Both engines evaluate code with the same result. -/
theorem evaluate (h : R e.core d) (evaluation : Evaluation) (code : String) :
    AlikeWith R (e.evaluate evaluation code) ((e.withCore d).evaluate evaluation code) := by
  obtain ⟨d₁, h₁, ensured⟩ := M.ensureScratch h
  unfold Engine.evaluate
  rw [ensured]
  generalize e.ensureScratch = result at h₁ ⊢
  obtain ⟨e₁, failure | id⟩ := result
  · exact ⟨d₁, h₁, rfl⟩
  · obtain ⟨d₂, h₂, ran⟩ := M.session h₁ id evaluation [.text code]
    dsimp only at ran ⊢
    rw [ran]
    generalize ((e₁.openEvaluation evaluation).invoke id .ignored Engine.scratchFunction
      [.text code]).1.closeEvaluation = result at h₂ ⊢
    obtain ⟨e₂, kept⟩ := result
    obtain ⟨d₃, h₃, dropped⟩ := M.dropScratch h₂ id
    dsimp only at dropped ⊢
    rw [dropped]
    exact ⟨d₃, h₃, rfl⟩

/-- Both engines evaluate code to the same text. -/
theorem evaluateToText (h : R e.core d) (code : String) :
    AlikeWith R (e.evaluateToText code) ((e.withCore d).evaluateToText code) := by
  obtain ⟨d₁, h₁, evaluated⟩ := M.evaluate h ⟨none, false, false⟩ code
  unfold Engine.evaluateToText
  rw [evaluated]
  generalize e.evaluate ⟨none, false, false⟩ code = result at h₁ ⊢
  obtain ⟨e₁, failure | kept⟩ := result
  · exact ⟨d₁, h₁, rfl⟩
  · exact ⟨d₁, h₁, rfl⟩

end Core.Mirror

end LuaHost
