import LuaHost.Proofs.Engine.Delivery
import LuaHost.Proofs.Engine.Proceeding
import LuaHost.Proofs.Engine.Scratch

/-!
# What operations put back

Operations run in a quiet mode of their own, with a script active, a load open or an evaluation in
progress, one inside the other and with many ways out. Between two operations nothing of that is
left: the quiet mode and the options are those the host set, and the scratch script that is
remembered is there.
-/

namespace LuaHost.Engine

/-! ### Settings -/

/-- What a host sets, and whether it closed the engine. -/
structure Setting where
  quiet : Bool
  options : Options
  closed : Bool

/-- The setting in force. -/
def setting (e : Engine) : Setting := ⟨e.core.quiet, e.core.options, e.closed⟩

/-- The engine when a close drops what was asked for. -/
def discarded (e : Engine) : Engine :=
  { e with
    core := { e.core with requests := .empty, timers := e.core.timers.clear, quiet := false }
    closed := true }

/-- The engine when a close begins to unload: it is quiet, and no scratch script is remembered. -/
def closing (e : Engine) : Engine := { e.setQuiet true with scratch := none }

/-- An engine that begins to close is settled. -/
theorem Settled.closing {e : Engine} (h : e.Settled) : e.closing.Settled :=
  h.congr rfl rfl rfl rfl rfl rfl

/-- A close that is the first one unloads the scratch script, then everything else, and drops what
was asked for. -/
theorem close_eq {e : Engine} (opened : e.closed = false) :
    e.close =
      ((e.scratch.map fun id => (e.closing.unload id).1).getD e.closing).unloadAll.discarded := by
  rw [close, if_neg (Bool.eq_false_iff.mp opened)]
  dsimp only
  split
  · next id scratch =>
    have scratch : e.scratch = some id := scratch
    rw [scratch]
    rfl
  · next scratch =>
    have scratch : e.scratch = none := scratch
    have same : e.setQuiet true = e.closing := by
      rw [closing, ← scratch]
      rfl
    rw [scratch, same]
    rfl

/-- The setting after an operation. Apart from the operations that set something, only the first
close changes it. -/
def Setting.after (g : Setting) : Operation → Setting
  | .setQuiet quiet => { g with quiet }
  | .setKeepEvaluation keepEvaluation =>
    { g with options := { g.options with keepEvaluation } }
  | .setCheckLicense checkLicense => { g with options := { g.options with checkLicense } }
  | .close => if g.closed then g else { g with quiet := false, closed := true }
  | _ => g

/-- An operation that may change the setting. -/
def Operation.Sets : Operation → Prop
  | .setQuiet _ | .setKeepEvaluation _ | .setCheckLicense _ | .close => True
  | _ => False

private theorem Setting.after_of_not_sets (g : Setting) {op : Operation} (h : ¬op.Sets) :
    g.after op = g := by
  cases op with
  | setQuiet | setKeepEvaluation | setCheckLicense | close => exact absurd trivial h
  | _ => rfl

/-- The scratch script that is remembered is registered under its name. -/
def ScratchKnown (e : Engine) : Prop :=
  ∀ id, e.scratch = some id → ∃ s ∈ e.scripts, s.id = id ∧ s.name = scratchName

private theorem scratchKnown_of_eq_none {e : Engine} (h : e.scratch = none) : e.ScratchKnown := by
  intro id known
  rw [h] at known
  cases known

/-- Between two operations the setting is as it was, and the scratch script is still known. -/
structure Stays (e e' : Engine) : Prop where
  settled : e'.Settled
  setting : e'.setting = e.setting
  scratch : e.ScratchKnown → e'.ScratchKnown

namespace Stays

variable {a b c : Engine}

private theorem refl (h : a.Settled) : a.Stays a := ⟨h, rfl, id⟩

private theorem trans (h : a.Stays b) (h' : b.Stays c) : a.Stays c :=
  ⟨h'.settled, h'.setting.trans h.setting, fun known => h'.scratch (h.scratch known)⟩

/-- What keeps the core and the rest of the engine but for output keeps the setting. -/
theorem of_kept (h : a.Settled) (kept : a.Kept b) : a.Stays b where
  settled := h.of_kept kept
  setting := by rw [Engine.setting, kept.core.quiet, kept.core.options, kept.closed]; rfl
  scratch known := by rwa [ScratchKnown, kept.scratch, scripts, kept.core.registry]

/-- An engine that is settled, with the same setting, and no scratch script. -/
theorem of_no_scratch (h : b.Settled) (setting : b.setting = a.setting)
    (scratch : b.scratch = none) : a.Stays b :=
  ⟨h, setting, fun _ => scratchKnown_of_eq_none scratch⟩

end Stays

/-- An operation in a quiet mode of its own is the operation with the mode put back behind it. -/
theorem withQuiet_eq_iff {α : Type} {e e' : Engine} {quiet : Bool}
    {operation : Engine → Engine × α} {result : α} :
    e.withQuiet quiet operation = (e', result) ↔
      ∃ after, operation (e.setQuiet quiet) = (after, result) ∧
        e' = after.setQuiet e.core.quiet := by
  unfold withQuiet
  obtain ⟨after, result'⟩ := operation (e.setQuiet quiet)
  constructor
  · rintro ⟨rfl, rfl⟩
    exact ⟨after, rfl, rfl⟩
  · rintro ⟨_, ⟨rfl, rfl⟩, rfl⟩
    rfl

section

variable {e : Engine} (h : e.Settled)
include h

/-! ### Loads and unloads -/

/-- A load leaves the setting alone and remembers no other scratch script. -/
theorem stays_loadSource (filename : String) (source : ByteArray) (inFile : Bool) :
    e.Stays (e.loadSource filename source inFile).1 := by
  rcases loadSource_cases h filename source inFile with
    ⟨about, -, -, free, -, kept⟩ | ⟨failure, lastId, -, -, used, kept⟩
  · have loaded : e.Stays (e.loaded filename about) := by
      refine ⟨h.loaded filename free, rfl, fun known id remembered => ?_⟩
      obtain ⟨s, mem, same⟩ := known id remembered
      exact ⟨s, h.scripts_loaded filename about ▸ List.mem_append_left _ mem, same⟩
    exact loaded.trans (.of_kept loaded.settled kept)
  · have spent : e.Stays (e.spent lastId) := ⟨h.spent used, rfl, fun known => known⟩
    exact spent.trans (.of_kept spent.settled kept)

/-- When a script goes that is the scratch script, that one is forgotten. -/
theorem stays_unload (id : ScriptId) : e.Stays (e.unload id).1 := by
  cases found : e.script? id with
  | none =>
    simp only [unload, found]
    exact .refl h
  | some s =>
    have settled : (e.unloaded s).Settled := (h.without found).congr rfl rfl rfl rfl rfl rfl
    have unloaded : e.Stays (e.unloaded s) := by
      refine ⟨settled, rfl, fun known id remembered => ?_⟩
      have scratch : (e.unloaded s).scratch =
          if e.scratch = some s.id then none else e.scratch := rfl
      rw [scratch] at remembered
      split at remembered
      · cases remembered
      · next other =>
        obtain ⟨t, mem, rfl, name⟩ := known id remembered
        have scripts : (e.unloaded s).scripts = e.scripts.filter (·.id ≠ s.id) :=
          Registry.scripts_remove _ _
        have stays : t.id ≠ s.id := fun same => other (remembered.trans (congrArg some same))
        exact ⟨t, scripts ▸ List.mem_filter.mpr ⟨mem, decide_eq_true stays⟩, rfl, name⟩
    exact unloaded.trans (.of_kept settled (kept_unload h.closed h.activeKnown found).2)

/-- A change of the quiet mode for one operation is taken back at its end. -/
theorem stays_withQuiet {α : Type} (quiet : Bool) {operation : Engine → Engine × α}
    (stays : ∀ e : Engine, e.Settled → e.Stays (operation e).1) :
    e.Stays (e.withQuiet quiet operation).1 := by
  have inside := stays (e.setQuiet quiet) (h.congr rfl rfl rfl rfl rfl rfl)
  refine ⟨inside.settled.congr rfl rfl rfl rfl rfl rfl, ?_, inside.scratch⟩
  exact congrArg (fun g : Setting => { g with quiet := e.core.quiet }) inside.setting

end

private theorem upheld_stays : Upheld fun e e' => e.Settled → e.Stays e' where
  refl _ h := .refl h
  trans h h' settled := (h settled).trans (h' (h settled).settled)
  loadSource _ filename source inFile h := stays_loadSource h filename source inFile
  unload _ id h := stays_unload h id
  print e _ h := .of_kept h (e.kept_updateCore (Core.kept_print _ _))
  files _ _ h := ⟨h.congr rfl rfl rfl rfl rfl rfl, rfl, fun known => known⟩
  withQuiet _ quiet _ stays h := stays_withQuiet h quiet stays

section

variable {e : Engine} (h : e.Settled)
include h

/-! ### Evaluations -/

/-- The scratch script that is loaded when there is none is remembered, and it bears its name. -/
theorem stays_ensureScratch : e.Stays e.ensureScratch.1 := by
  unfold ensureScratch
  cases e.scratch with
  | some id => exact .refl h
  | none =>
    have stays := upheld_stays.loadQuietly e scratchName (some scratchSource) h
    generalize result : e.withQuiet true (·.load scratchName (some scratchSource)) = loaded at stays
    obtain ⟨e₁, cause | id⟩ := loaded
    · exact stays
    · obtain ⟨e₂, ran, rfl⟩ := withQuiet_eq_iff.mp result
      have quiet : (e.setQuiet true).Settled := h.congr rfl rfl rfl rfl rfl rfl
      refine ⟨stays.settled.congr rfl rfl rfl rfl rfl rfl, stays.setting, fun _ id' same => ?_⟩
      obtain rfl : id = id' := Option.some.inj same
      have known : ∃ s ∈ e₂.scripts, s.id = id ∧ s.name = scratchName := load_scratch quiet ran
      exact known

private theorem stays_handleSignal (name data : String) : e.Stays (e.handleSignal name data).1 := by
  unfold handleSignal
  split
  · next core handled =>
    exact .of_kept h ⟨⟨rfl, rfl, rfl, rfl, rfl, rfl⟩, Core.kept_handleSignal handled⟩
  · exact .refl h

/-- The call of an evaluation leaves the setting alone and remembers no other scratch script. -/
theorem stays_evaluated (id : ScriptId) (evaluation : Evaluation) (arguments : List Argument) :
    e.Stays (e.evaluated id evaluation arguments) := by
  have settled : (e.withEvaluation none).Settled := h.congr rfl rfl rfl rfl rfl rfl
  have idle : e.Stays (e.withEvaluation none) := ⟨settled, rfl, fun known => known⟩
  exact idle.trans (.of_kept settled (kept_evaluated h id evaluation arguments))

private theorem stays_dropScratch (id : ScriptId) : e.Stays (e.dropScratch id) := by
  unfold dropScratch
  split
  · exact .refl h
  · have unloaded := stays_withQuiet h true fun e settled => stays_unload settled id
    exact .of_no_scratch (unloaded.settled.congr rfl rfl rfl rfl rfl rfl) unloaded.setting rfl

/-- An evaluation leaves the setting alone, and the scratch script that it remembers is loaded. -/
theorem stays_evaluate (evaluation : Evaluation) (code : String) :
    e.Stays (e.evaluate evaluation code).1 := by
  have ensured := stays_ensureScratch h
  rw [evaluate_eq]
  generalize e.ensureScratch = result at ensured
  obtain ⟨e₁, failure | id⟩ := result
  · exact ensured
  · have ran := ensured.trans (stays_evaluated ensured.settled id evaluation [.text code])
    exact ran.trans (stays_dropScratch ran.settled id)

/-! ### Batches and timers -/

/-- A batch runs in the quiet mode that its requests ask for and puts the one before it back. -/
theorem stays_runRequests (kind : RequestKind) : e.Stays (e.runRequests kind) := by
  have taken : e.Stays (e.takeRequests kind).2 :=
    ⟨h.congr rfl rfl rfl rfl rfl rfl, rfl, fun known => known⟩
  unfold runRequests
  dsimp only
  split
  · exact taken
  · have noted : e.Stays (e.takenUp kind) :=
      ⟨h.congr rfl rfl rfl rfl rfl rfl, rfl, fun known => known⟩
    exact noted.trans (stays_withQuiet noted.settled _ (upheld_stays.runBatch · kind _))

private theorem stays_runTimers (now : Nat) : e.Stays (e.runTimers now).1 := by
  have taken : e.Stays (e.withoutReady now) :=
    ⟨h.congr rfl rfl rfl rfl rfl rfl, rfl, fun known => known⟩
  rw [runTimers_eq]
  exact List.foldlRecOn (e.readyKinds now) _ taken
    fun _ stays kind _ => stays.trans (stays_runRequests stays.settled kind)

/-! ### Closing -/

/-- What a close unloads is unloaded in quiet mode. After that what was asked for is dropped, and
the mode is not put back but ended. -/
theorem close_of_open (opened : e.closed = false) :
    ∃ emptied, (e.setQuiet true).Stays emptied ∧ e.close = emptied.discarded := by
  have closing : (e.setQuiet true).Stays e.closing := .of_no_scratch h.closing rfl rfl
  refine ⟨_, ?_, close_eq opened⟩
  cases e.scratch with
  | none => exact closing.trans (upheld_stays.unloadAll _ h.closing)
  | some id =>
    have dropped := closing.trans (stays_unload h.closing id)
    exact dropped.trans (upheld_stays.unloadAll _ dropped.settled)

private theorem setting_close : e.close.setting = e.setting.after .close := by
  by_cases closed : e.closed = true
  · have before : e.setting.after .close = e.setting := if_pos closed
    rw [close_of_closed closed, before]
  · have after : e.setting.after .close = ⟨false, e.core.options, true⟩ := if_neg closed
    obtain ⟨emptied, stays, eq⟩ := close_of_open h (Bool.eq_false_iff.mpr closed)
    have options : emptied.core.options = e.core.options := congrArg Setting.options stays.setting
    rw [after, eq, ← options]
    rfl

private theorem scratchKnown_close (known : e.ScratchKnown) : e.close.ScratchKnown := by
  by_cases closed : e.closed = true
  · rwa [close_of_closed closed]
  · obtain ⟨emptied, stays, eq⟩ := close_of_open h (Bool.eq_false_iff.mpr closed)
    rw [eq]
    exact stays.scratch known

/-! ### Operations -/

/-- An operation that sets nothing leaves the setting as it was. -/
theorem stays_perform {op : Operation} (sets : ¬op.Sets) : e.Stays (e.perform op) := by
  by_cases plain : op.IsPlain
  · exact upheld_stays.perform e plain h
  · cases op with
    | invoke script kind function arguments =>
      exact .of_kept h (kept_invoke h.closed h.activeKnown script kind function arguments)
    | evaluate evaluation code => exact stays_evaluate h evaluation code
    | evaluateToText code =>
      rw [perform, evaluateToText_fst]
      exact stays_evaluate h _ code
    | request kind item =>
      have kept : e.Kept (e.request kind item) := e.kept_updateCore (Core.kept_request _ kind item)
      exact .of_kept h kept
    | handleSignal name data => exact stays_handleSignal h name data
    | runTimers now => exact stays_runTimers h now
    | runRequests kind => exact stays_runRequests h kind
    | dump => exact .of_kept h (e.kept_updateCore (Core.kept_dump _))
    | setQuiet | setKeepEvaluation | setCheckLicense | close => exact absurd trivial sets
    | _ => exact absurd trivial plain

/-- The setting after an operation is the one the host knows of. -/
theorem setting_perform (op : Operation) : (e.perform op).setting = e.setting.after op := by
  by_cases sets : op.Sets
  · cases op with
    | close => exact setting_close h
    | setQuiet | setKeepEvaluation | setCheckLicense => rfl
    | _ => exact sets.elim
  · rw [(stays_perform h sets).setting, Setting.after_of_not_sets _ sets]

private theorem scratchKnown_perform (op : Operation) (known : e.ScratchKnown) :
    (e.perform op).ScratchKnown := by
  by_cases sets : op.Sets
  · cases op with
    | close => exact scratchKnown_close h known
    | setQuiet | setKeepEvaluation | setCheckLicense => exact known
    | _ => exact sets.elim
  · exact (stays_perform h sets).scratch known

end

/-! ### Runs -/

/-- The engines that come about when a host asks for operations in this order. Between two of them
files, the environment and the time may change. -/
inductive Runs (e : Engine) : List Operation → Engine → Prop where
  | refl : Runs e [] e
  | perform {ops : List Operation} {e' : Engine} (h : Runs e ops e') (op : Operation) :
      Runs e (ops ++ [op]) (e'.perform op)
  | outside {ops : List Operation} {e' : Engine} (h : Runs e ops e') (files : FileTree)
      (environment : Environment) (clock : Nat) :
      Runs e ops ({ e' with files, environment }.setClock clock)

private theorem Runs.evolves {e e' : Engine} {ops : List Operation} (h : e.Runs ops e') :
    e.Evolves e' := by
  induction h with
  | refl => exact .refl
  | perform _ op ih => exact ih.perform op
  | outside _ files environment clock ih => exact ih.outside files environment clock

/-- Whatever comes about does so by some operations in some order. -/
theorem Evolves.runs {e e' : Engine} (h : e.Evolves e') : ∃ ops, e.Runs ops e' := by
  induction h with
  | refl => exact ⟨[], .refl⟩
  | perform _ op ih =>
    obtain ⟨ops, runs⟩ := ih
    exact ⟨ops ++ [op], runs.perform op⟩
  | outside _ files environment clock ih =>
    obtain ⟨ops, runs⟩ := ih
    exact ⟨ops, runs.outside files environment clock⟩

private theorem Runs.setting {e e' : Engine} {ops : List Operation} (settled : e.Settled)
    (h : e.Runs ops e') : e'.setting = ops.foldl Setting.after e.setting := by
  induction h with
  | refl => rfl
  | perform earlier op ih =>
    rw [setting_perform (settled.evolves earlier.evolves), ih, List.foldl_concat]
  | outside _ _ _ _ ih => exact ih

private theorem Runs.scratchKnown {e e' : Engine} {ops : List Operation} (settled : e.Settled)
    (known : e.ScratchKnown) (h : e.Runs ops e') : e'.ScratchKnown := by
  induction h with
  | refl => exact known
  | perform earlier op ih => exact scratchKnown_perform (settled.evolves earlier.evolves) op ih
  | outside _ _ _ _ ih => exact ih

/-- Between operations the scratch script that is remembered is registered under its name. -/
theorem Reachable.scratchKnown {e : Engine} (h : e.Reachable) : e.ScratchKnown := by
  obtain ⟨options, license, files, environment, budget, evolves⟩ := h
  obtain ⟨ops, runs⟩ := evolves.runs
  exact runs.scratchKnown (settled_new options license files environment budget)
    (scratchKnown_of_eq_none rfl)

/-- Between two operations no script is active, no load and no evaluation is in progress, the quiet
mode and the options are as the host set them and the first close ended them, and the scratch
script that is remembered is registered under its name. -/
theorem ambient_put_back {options : Options} {license : String} {files : FileTree}
    {environment : Environment} {budget : Nat} {ops : List Operation} {e : Engine}
    (h : (new options license files environment budget).Runs ops e) :
    e.core.active = none ∧ e.core.loading = none ∧ e.core.output.evaluation = none ∧
      e.setting = ops.foldl Setting.after ⟨false, options, false⟩ ∧
      ∀ id, e.scratch = some id → ∃ s ∈ e.scripts, s.id = id ∧ s.name = scratchName := by
  have settled := settled_new options license files environment budget
  have reachable : e.Reachable := .of_new options license files environment budget h.evolves
  exact ⟨reachable.settled.active, reachable.settled.loading, reachable.evaluation,
    h.setting settled, h.scratchKnown settled (scratchKnown_of_eq_none rfl)⟩

/-- What a host asks for that keeps the scratch script of an evaluation that fails, loads a script
and mutes the engine in the end. -/
def attendance : List Operation :=
  [.setKeepEvaluation true, .evaluateToText "error('no')", .load "a.lua" (some (registers "a")),
    .setQuiet true]

/-- A new engine behind these operations. -/
def attended : Engine := attendance.foldl perform bare

private theorem runs_attended : bare.Runs attendance attended :=
  (((Runs.refl.perform _).perform _).perform _).perform _

set_option maxRecDepth 100000 in
/-- The case of a scratch script that was kept, with the quiet mode set last. -/
theorem ambient_put_back_attended :
    attended.core.active = none ∧ attended.core.loading = none ∧
      attended.core.output.evaluation = none ∧
      attended.setting = ⟨true, { bare.core.options with keepEvaluation := true }, false⟩ ∧
      attended.scratch = some ⟨1⟩ ∧ attended.scripts.length = 2 ∧
      ∃ s ∈ attended.scripts, s.id = ⟨1⟩ ∧ s.name = scratchName := by
  obtain ⟨active, loading, evaluation, setting, known⟩ := ambient_put_back runs_attended
  obtain ⟨scratch, two⟩ : attended.scratch = some ⟨1⟩ ∧ attended.scripts.length = 2 := by
    decide +kernel
  exact ⟨active, loading, evaluation, setting, scratch, two, known _ scratch⟩

end LuaHost.Engine
