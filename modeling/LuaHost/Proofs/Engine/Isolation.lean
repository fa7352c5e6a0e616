import LuaHost.Proofs.Engine.Ambient
import LuaHost.Proofs.Engine.Evaluations
import LuaHost.Proofs.Engine.Teardown

/-!
# Evaluations that leave nothing behind

What runs in one context leaves the interpreter states of all others alone. So when the scratch
script is gone after an evaluation, everything is gone that its code did inside, and the engine is
the same whatever code that was, but for what was printed and asked for. Later evaluations cannot
tell.
-/

namespace LuaHost

open Lua (Heap Machine)

/-- What is kept is the same but for output, the log and what was asked for. -/
theorem Core.Kept.muted {c c' : Core} (h : c.Kept c') : c'.muted = c.muted := by
  simp only [Core.muted, h.registry, h.active, h.loading, h.quiet, h.options, h.clock, h.created,
    h.destroyed, h.license]

namespace Engine

open LuaHost.Core (Idle)

/-! ### Other contexts -/

/-- The interpreter states of all contexts but one. -/
def others (e : Engine) (context : ContextId) : List (ContextId × Heap) :=
  e.contexts.filter (·.1 ≠ context)

private theorem others_setHeap (e : Engine) (context : ContextId) (heap : Heap) :
    (e.setHeap context heap).others context = e.others context := by
  simp only [others, setHeap]
  induction e.contexts with
  | nil => rfl
  | cons x rest ih =>
    obtain ⟨c, h⟩ := x
    by_cases same : c = context <;> simp [same] at ih ⊢ <;> exact ih

private theorem others_runInWith (e : Engine) (step : Machine → Lua.Step) (context : ContextId)
    (setUp : Heap → Machine) :
    (e.runInWith step context setUp).1.others context = e.others context :=
  others_setHeap _ context _

private theorem others_runIn (e : Engine) (context : ContextId) (setUp : Heap → Machine) :
    (e.runIn context setUp).1.others context = e.others context :=
  e.others_runInWith Machine.step context setUp

private theorem others_global (e : Engine) (context : ContextId) (name : String) :
    (e.global context name).1.others context = e.others context := by
  cases found : (e.heapOf context).lookup (.text name) true Heap.chainLimit
      (.table (e.heapOf context).globals) with
  | handler f object =>
    have ran := e.others_runIn context fun heap =>
      Lua.Interpreter.start heap f [object, .text name]
    simp only [global, found]
    split
    · next same => rw [same] at ran; exact ran
    · next same => rw [same] at ran; exact ran
  | found | refused | endless => simp only [global, found]

private theorem contexts_settleOutcome (e : Engine) (context : ContextId) (kind : ResultKind)
    (function : String) (outcome : Lua.Outcome) :
    (e.settleOutcome context kind function outcome).1.contexts = e.contexts := by
  unfold settleOutcome
  split
  · rfl
  · split <;> rfl

private theorem others_invokeActive (e : Engine) (context : ContextId) (kind : ResultKind)
    (function : String) (arguments : List Argument) :
    (e.invokeActive context kind function arguments).1.others context = e.others context := by
  have looked := e.others_global context function
  unfold invokeActive
  generalize e.global context function = result at looked
  obtain ⟨e₁, f⟩ := result
  have ran : (e₁.apply context f arguments).1.others context = e₁.others context :=
    others_runIn e₁ context _
  dsimp only
  split
  · exact looked
  · generalize e₁.apply context f arguments = result at ran
    obtain ⟨e₂, outcome⟩ := result
    have settled := contexts_settleOutcome (e₂.updateCore Core.flush) context kind function outcome
    dsimp only
    generalize (e₂.updateCore Core.flush).settleOutcome context kind function outcome = result
      at settled
    obtain ⟨e₃, answer⟩ := result
    have same : e₃.others context = e.others context := by
      rw [others, settled]
      exact ran.trans looked
    dsimp only
    split <;> exact same

private theorem others_invoke {e : Engine} {s : Script} (found : e.script? s.id = some s)
    (kind : ResultKind) (function : String) (arguments : List Argument) :
    (e.invoke s.id kind function arguments).1.others s.context = e.others s.context := by
  unfold invoke
  rw [found]
  split
  · rfl
  · exact others_invokeActive (e.updateCore (·.activate (some s.id))) s.context kind function
      arguments

private theorem others_release (e : Engine) (context : ContextId) :
    (e.release context).others context = e.others context := by
  unfold release
  dsimp only
  rw [others_runIn, others_runIn, others_setHeap]

private theorem others_closeState (e : Engine) (context : ContextId) :
    (e.closeState context).others context = e.others context := by
  unfold closeState
  dsimp only
  rw [others_runInWith, others_runIn]

private theorem contexts_destroyContext (e : Engine) (context : ContextId) :
    (e.destroyContext context).contexts = e.others context :=
  (others_closeState ((e.release context).updateCore Core.flush) context).trans
    (e.others_release context)

private theorem others_releaseScript (e : Engine) (s : Script) :
    (e.releaseScript s).others s.context = e.others s.context :=
  others_release (e.updateCore (·.activate (some s.id))) s.context

/-- A script that is destroyed takes its own interpreter state with it and leaves the others as they
were. -/
theorem contexts_destroyScript {e : Engine} {s : Script} (found : e.script? s.id = some s) :
    (e.destroyScript s.id).contexts = e.others s.context := by
  rw [destroyScript_of_found found, updateCore, contexts_destroyContext]
  exact e.others_releaseScript s

private theorem others_shutDown {e : Engine} {s : Script} (found : e.script? s.id = some s) :
    (e.shutDown s).others s.context = e.others s.context := by
  unfold shutDown
  split
  · exact others_invoke found _ _ _
  · rfl

private theorem contexts_unload {e : Engine} (h : e.Settled) {s : Script}
    (found : e.script? s.id = some s) : (e.unload s.id).1.contexts = e.others s.context := by
  have informed := e.kept_inform ("unloading script \"" ++ s.name ++ "\"")
  have shut : (e.shut s).others s.context = e.others s.context :=
    others_shutDown ((informed.script? s.id).trans found)
  have forgotten (e' : Engine) : (if e'.scratch = some s.id then { e' with scratch := none }
      else e').contexts = e'.contexts := by split <;> rfl
  simp only [unload, found]
  refine (forgotten _).trans ?_
  rw [← shut]
  exact contexts_destroyScript (((kept_shut h s).script? s.id).trans found)

/-! ### The end of an evaluation -/

private theorem contexts_closeEvaluation (e : Engine) :
    e.closeEvaluation.1.contexts = e.contexts := rfl

private theorem others_evaluated {e : Engine} {s : Script} (found : e.script? s.id = some s)
    (evaluation : Evaluation) (arguments : List Argument) :
    (e.evaluated s.id evaluation arguments).others s.context = e.others s.context := by
  have flushed : (e.openEvaluation evaluation).script? s.id = e.script? s.id :=
    e.kept_flush.script? s.id
  rw [evaluated, others, contexts_closeEvaluation]
  exact others_invoke (flushed.trans found) _ _ _

namespace Kept

variable {a b c : Engine}

private theorem setQuiet (h : a.Kept b) (quiet : Bool) :
    (a.setQuiet quiet).Kept (b.setQuiet quiet) :=
  ⟨{ h.toSameAround with }, { h.core with quiet := rfl }⟩

private theorem withoutScratch (h : a.Kept b) :
    { a with scratch := none }.Kept { b with scratch := none } :=
  ⟨{ h.toSameAround with scratch := rfl }, h.core⟩

private theorem unloaded (h : a.Kept b) (s : Script) : (a.unloaded s).Kept (b.unloaded s) := by
  have gone := ((h.withdraw s.id).dropContext s.context)
  have scratch : (if b.scratch = some s.id then none else b.scratch) =
      if a.scratch = some s.id then none else a.scratch := by rw [h.scratch]
  have same : { a.without s with scratch := if a.scratch = some s.id then none else a.scratch }.Kept
      { b.without s with scratch := if b.scratch = some s.id then none else b.scratch } :=
    ⟨{ gone.toSameAround with scratch := scratch }, gone.core⟩
  exact same.emit _

/-- Two engines that come of one with the same interpreter states differ in what scripts cannot see
at most. -/
theorem idle (hb : a.Kept b) (hc : a.Kept c) (quiet : a.core.output.evaluation = none)
    (contexts : c.contexts = b.contexts) : Idle b.core c.core ∧ c = b.withCore c.core := by
  refine ⟨⟨hb.core.muted.trans hc.core.muted.symm, hb.core.evaluation.trans quiet,
    hc.core.evaluation.trans quiet⟩, ?_⟩
  obtain ⟨core, contexts', scratch, closed, files, environment, budget⟩ := c
  obtain rfl : contexts' = b.contexts := contexts
  obtain rfl : scratch = b.scratch := hc.scratch.trans hb.scratch.symm
  obtain rfl : closed = b.closed := hc.closed.trans hb.closed.symm
  obtain rfl : files = b.files := hc.files.trans hb.files.symm
  obtain rfl : environment = b.environment := hc.environment.trans hb.environment.symm
  obtain rfl : budget = b.budget := hc.budget.trans hb.budget.symm
  rfl

end Kept

/-- The engine when an evaluation is over and its scratch script is gone, but for output and what
was asked for. -/
def afterwards (e : Engine) (s : Script) : Engine :=
  { (((e.withEvaluation none).setQuiet true).unloaded s).setQuiet e.core.quiet with
    scratch := none }

/-- Whatever is evaluated, and wherever its output goes, the engine is the same in the end, and of
the interpreter states just that of the scratch script is missing. -/
theorem kept_afterwards {e : Engine} (h : e.Settled) (keep : e.core.options.keepEvaluation = false)
    {s : Script} (found : e.script? s.id = some s) (evaluation : Evaluation)
    (arguments : List Argument) :
    (e.afterwards s).Kept ((e.evaluated s.id evaluation arguments).dropScratch s.id) ∧
      ((e.evaluated s.id evaluation arguments).dropScratch s.id).contexts =
        e.others s.context := by
  have kept := kept_evaluated h s.id evaluation arguments
  have settled := (stays_evaluated h s.id evaluation arguments).settled
  have others := others_evaluated found evaluation arguments
  generalize e.evaluated s.id evaluation arguments = a at kept settled others
  have dropped : a.dropScratch s.id =
      { ((a.setQuiet true).unload s.id).1.setQuiet a.core.quiet with scratch := none } := by
    have temporary : ¬a.core.options.keepEvaluation = true := by
      rw [kept.core.options]
      exact Bool.eq_false_iff.mp keep
    rw [dropScratch, if_neg temporary]
    rfl
  have quiet : (a.setQuiet true).Settled := settled.congr rfl rfl rfl rfl rfl rfl
  have found' : (a.setQuiet true).script? s.id = some s := (kept.script? s.id).trans found
  have mode : a.core.quiet = e.core.quiet := kept.core.quiet
  rw [dropped, mode]
  constructor
  · have unloaded := ((kept.setQuiet true).unloaded s).trans
      (kept_unload quiet.closed quiet.activeKnown found').2
    exact (unloaded.setQuiet e.core.quiet).withoutScratch
  · exact (contexts_unload quiet found').trans others

/-! ### Evaluations -/

/-- The scratch script is there, or it cannot be loaded, or it is brought in. -/
inductive Scratched (e : Engine) : Engine × Except Failure ScriptId → Prop where
  | there {id : ScriptId} (known : e.scratch = some id) : Scratched e (e, .ok id)
  | missing {e' : Engine} (failure : Failure) (none_known : e.scratch = none)
      (scripts : e'.scripts = e.scripts) : Scratched e (e', .error failure)
  | new {e' : Engine} {s : Script} (none_known : e.scratch = none) (name : s.name = scratchName)
      (scripts : e'.scripts = e.scripts ++ [s]) : Scratched e (e', .ok s.id)

private theorem scratched_ensureScratch {e : Engine} (h : e.Settled) :
    e.Scratched e.ensureScratch := by
  unfold ensureScratch
  cases known : e.scratch with
  | some id => exact .there known
  | none =>
    generalize result : e.withQuiet true (·.load scratchName (some scratchSource)) = loaded
    obtain ⟨e₁, outcome⟩ := loaded
    obtain ⟨e₂, ran, rfl⟩ := withQuiet_eq_iff.mp result
    have quiet : (e.setQuiet true).Settled := h.congr rfl rfl rfl rfl rfl rfl
    have source : (e.setQuiet true).loadSource scratchName scratchSource.toUTF8 false =
        (e₂, outcome) := ran
    rcases loadSource_cases quiet scratchName scratchSource.toUTF8 false with
      ⟨about, -, accepted, -, loaded, kept⟩ | ⟨failure, lastId, -, failed, -, kept⟩
    · rw [source] at loaded kept
      obtain rfl : about = scratchAbout.val :=
        accepted_sourceDialogue quiet scratchAbout.property about
          (accepted ▸ List.mem_singleton_self about)
      obtain rfl : outcome = .ok (e.setQuiet true).core.registry.nextId := loaded
      have scripts : e₂.scripts = e.scripts ++ [⟨e.core.registry.nextId, scratchName,
          scratchAbout.val, e.nextContext, true⟩] :=
        (congrArg Registry.scripts kept.core.registry).trans (quiet.scripts_loaded _ _)
      dsimp only
      exact .new (s := ⟨_, scratchName, scratchAbout.val, e.nextContext, true⟩) known rfl scripts
    · rw [source] at failed kept
      obtain rfl : outcome = .error failure := failed
      exact .missing _ known (untouched_spent kept).scripts

/-- No script bears the name of the scratch script, and the other scripts are as they were. -/
structure Swept (e e' : Engine) : Prop where
  scripts : e'.scripts = e.scripts.filter (·.name ≠ scratchName)
  names : ∀ name, e'.find? name = if name = scratchName then none else e.find? name

private theorem swept_of_scripts {e e' : Engine} (h : e.Settled) (h' : e'.Settled)
    (scripts : e'.scripts = e.scripts.filter (·.name ≠ scratchName)) : e.Swept e' :=
  ⟨scripts, h.wellFormed.find?_of_filter h'.wellFormed scripts⟩

/-- Without the scratch script the scripts are what they were, whether it was there before or was
brought in. -/
theorem Scratched.there_or_new {e e₁ : Engine} {id : ScriptId}
    (scratched : e.Scratched (e₁, .ok id)) (known : e.ScratchKnown) :
    ∃ s ∈ e₁.scripts, s.id = id ∧ s.name = scratchName ∧
      e₁.scripts.filter (·.name ≠ scratchName) = e.scripts.filter (·.name ≠ scratchName) := by
  cases scratched with
  | there remembered =>
    obtain ⟨s, mem, number, name⟩ := known id remembered
    exact ⟨s, mem, number, name, rfl⟩
  | @new _ s none_known name scripts =>
    refine ⟨s, scripts ▸ List.mem_append_right _ (List.mem_singleton_self s), rfl, name, ?_⟩
    rw [scripts, List.filter_append, List.filter_cons_of_neg (by simpa using name),
      List.filter_nil, List.append_nil]

/-- When the scratch script is gone, no script bears its name. -/
theorem swept_afterwards {e e₁ : Engine} (h : e.Settled) (h₁ : e₁.Settled) {s : Script}
    (mem : s ∈ e₁.scripts) (name : s.name = scratchName)
    (rest : e₁.scripts.filter (·.name ≠ scratchName) = e.scripts.filter (·.name ≠ scratchName)) :
    e.Swept (e₁.afterwards s) := by
  have found : e₁.script? s.id = some s := (h₁.wellFormed.get?_eq_some_iff s.id s).mpr ⟨mem, rfl⟩
  have settled : (e₁.afterwards s).Settled := (h₁.without found).congr rfl rfl rfl rfl rfl rfl
  refine swept_of_scripts h settled ?_
  have scripts : (e₁.afterwards s).scripts = e₁.scripts.filter (·.id ≠ s.id) :=
    Registry.scripts_remove _ _
  rw [scripts, ← rest]
  refine List.filter_congr fun t ht => decide_eq_decide.mpr (not_congr ?_)
  constructor
  · intro number
    rw [h₁.wellFormed.eq_of_id ht mem number, name]
  · intro same
    exact congrArg Script.id (h₁.wellFormed.eq_of_name ht mem (same.trans name.symm))

private theorem swept_of_missing {e e₁ : Engine} {failure : Failure} (h : e.Settled)
    (h₁ : e₁.Settled)
    (scratched : e.Scratched (e₁, .error failure))
    (own : ∀ s ∈ e.scripts, s.name = scratchName → e.scratch = some s.id) : e.Swept e₁ := by
  cases scratched with
  | missing _ none_known scripts =>
    refine swept_of_scripts h h₁ (scripts.trans (List.filter_eq_self.mpr fun s mem => ?_).symm)
    have other : s.name ≠ scratchName := by
      intro name
      have known := own s mem name
      rw [none_known] at known
      cases known
    simpa using other

private theorem Swept.name_ne {e e' : Engine} (h : e.Swept e') {s : Script} (mem : s ∈ e'.scripts) :
    s.name ≠ scratchName := by
  rw [h.scripts] at mem
  exact of_decide_eq_true (List.mem_filter.mp mem).2

private theorem Swept.trans {a b c : Engine} (h : a.Swept b) (h' : b.Swept c) : a.Swept c where
  scripts := by
    rw [h'.scripts, h.scripts, List.filter_filter]
    exact List.filter_congr fun s _ => Bool.and_self _
  names name := by
    rw [h'.names, h.names]
    split <;> rfl

/-- What an evaluation comes to that does not keep its scratch script: either that script cannot be
loaded, whatever is to be evaluated, or it is gone in the end with its interpreter state. -/
theorem evaluate_cases {e : Engine} (h : e.Reachable)
    (keep : e.core.options.keepEvaluation = false)
    (own : ∀ s ∈ e.scripts, s.name = scratchName → e.scratch = some s.id) :
    (∃ e₁ : Engine, e.Swept e₁ ∧ ∀ evaluation code, (e.evaluate evaluation code).1 = e₁) ∨
      ∃ (e₁ : Engine) (s : Script), e.Swept (e₁.afterwards s) ∧ ∀ evaluation code,
        (e₁.afterwards s).Kept (e.evaluate evaluation code).1 ∧
          (e.evaluate evaluation code).1.contexts = e₁.others s.context := by
  have stays := stays_ensureScratch h.settled
  have scratched := scratched_ensureScratch h.settled
  have evaluates (evaluation : Evaluation) (code : String) := e.evaluate_eq evaluation code
  generalize e.ensureScratch = result at stays scratched evaluates
  obtain ⟨e₁, failure | id⟩ := result
  · exact .inl ⟨e₁, swept_of_missing h.settled stays.settled scratched own, evaluates⟩
  · obtain ⟨s, mem, rfl, name, rest⟩ := scratched.there_or_new h.scratchKnown
    have keep₁ : e₁.core.options.keepEvaluation = false := by
      have options : e₁.core.options = e.core.options := congrArg Setting.options stays.setting
      rw [options, keep]
    have found := (stays.settled.wellFormed.get?_eq_some_iff s.id s).mpr ⟨mem, rfl⟩
    refine .inr ⟨e₁, s, swept_afterwards h.settled stays.settled mem name rest, ?_⟩
    intro evaluation code
    rw [evaluates]
    exact kept_afterwards stays.settled keep₁ found evaluation [.text code]

private theorem evaluate_swept {e : Engine} (h : e.Reachable)
    (keep : e.core.options.keepEvaluation = false)
    (own : ∀ s ∈ e.scripts, s.name = scratchName → e.scratch = some s.id)
    (evaluation : Evaluation) (code : String) : e.Swept (e.evaluate evaluation code).1 := by
  rcases evaluate_cases h keep own with ⟨e₁, swept, same⟩ | ⟨e₁, s, swept, same⟩
  · rw [same]
    exact swept
  · have kept := (same evaluation code).1
    have registry := kept.core.registry
    refine ⟨(congrArg Registry.scripts registry).trans swept.scripts, fun name => ?_⟩
    rw [← swept.names name, find?, registry]
    rfl

private theorem evaluateToText_snd (e : Engine) (code : String) :
    (e.evaluateToText code).2 =
      (e.evaluate ⟨none, false, false⟩ code).2.toOption.join := by
  unfold evaluateToText
  split
  · next same => rw [same]; rfl
  · next same => rw [same]; rfl

/-- While the scratch script is not kept, an evaluation returns the same text whatever was evaluated
before and wherever the output of that went. After either evaluation no script bears the name of the
scratch script, and the other scripts are as they were. -/
theorem evaluations_isolated {e : Engine} (h : e.Reachable)
    (keep : e.core.options.keepEvaluation = false)
    (own : ∀ s ∈ e.scripts, s.name = scratchName → e.scratch = some s.id)
    (first first' : Evaluation) (code code' later : String) :
    ((e.evaluate first code).1.evaluateToText later).2 =
        ((e.evaluate first' code').1.evaluateToText later).2 ∧
      e.Swept (e.evaluate first code).1 ∧
      e.Swept ((e.evaluate first code).1.evaluateToText later).1 := by
  have swept := evaluate_swept h keep own first code
  refine ⟨?_, swept, ?_⟩
  · rw [evaluateToText_snd, evaluateToText_snd]
    rcases evaluate_cases h keep own with ⟨e₁, -, same⟩ | ⟨e₁, s, -, same⟩
    · rw [same, same]
    · obtain ⟨kept, contexts⟩ := same first code
      obtain ⟨kept', contexts'⟩ := same first' code'
      obtain ⟨idle, withCore⟩ := kept.idle kept' rfl (contexts'.trans contexts.symm)
      rw [withCore, (evaluate_idle idle _ later).1]
  · have reachable : (e.evaluate first code).1.Reachable := h.perform (.evaluate first code)
    have options : (e.evaluate first code).1.core.options = e.core.options :=
      congrArg Setting.options (stays_evaluate h.settled first code).setting
    rw [evaluateToText_fst]
    refine swept.trans (evaluate_swept reachable (by rw [options, keep]) ?_ _ later)
    intro s mem name
    exact absurd name (swept.name_ne mem)

/-- Code that leaves a global, a finalizer and an unfinished line behind and fails. -/
def litter : String :=
  "x = 5
y = setmetatable(\x7b\x7d, \x7b__gc = function() print(x) end\x7d)
io.write('left')
error(x)"

set_option maxRecDepth 100000 in
/-- The case of code that leaves a global, a finalizer and an unfinished line behind and fails. -/
theorem evaluations_isolated_bare :
    bare.core.options.keepEvaluation = false ∧ bare.scripts = [] ∧
      ((bare.evaluate ⟨none, false, false⟩ litter).1.evaluateToText "print(x)").2 = some "nil" ∧
      bare.Swept (bare.evaluate ⟨none, false, false⟩ litter).1 := by
  obtain ⟨same, swept, -⟩ := evaluations_isolated reachable_bare rfl (List.forall_mem_nil _)
    ⟨none, false, false⟩ ⟨none, false, false⟩ litter "" "print(x)"
  have unset : ((bare.evaluate ⟨none, false, false⟩ "").1.evaluateToText "print(x)").2 =
      some "nil" := by
    decide +kernel
  exact ⟨rfl, rfl, same.trans unset, swept⟩

end Engine

end LuaHost
