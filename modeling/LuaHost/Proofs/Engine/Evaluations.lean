import LuaHost.Proofs.Core.Sessions
import LuaHost.Proofs.Engine.Delivery
import LuaHost.Proofs.Engine.Simulation

/-!
# Evaluations agree

Scripts cannot tell where their output goes. So an evaluation that keeps its output returns just
what it would have delivered to a buffer, and output that waited before has no part in it.
-/

namespace LuaHost.Engine

open LuaHost.Core (Idle Abreast Session Told)

/-- The session of an evaluation, with its result. -/
def session (e : Engine) (id : ScriptId) (evaluation : Evaluation) (arguments : List Argument) :
    Engine × Option String :=
  ((e.openEvaluation evaluation).invoke id .ignored scratchFunction arguments).1.closeEvaluation

/-- What the host is told while the session of an evaluation is open. -/
def sessionEvents (e : Engine) (evaluation : Evaluation) (code : String) : List Event :=
  match e.ensureScratch with
  | (_, .error _) => []
  | (e, .ok id) =>
    (e.session id evaluation [.text code]).1.core.events.toList.drop
      (e.openEvaluation evaluation).core.events.size

/-- The engine with other text waiting to be delivered. -/
def withPending (e : Engine) (text : String) : Engine :=
  e.withCore { e.core with output := { e.core.output with buffer := text } }

/-- What a core keeps as the result of an evaluation. -/
def kept? (c : Core) : Option String :=
  if c.output.isCapturing then some c.output.buffer else none

private theorem events_closeEvaluation (e : Engine) :
    e.closeEvaluation.1.core.events = e.core.flush.events := by
  unfold closeEvaluation
  dsimp only
  split <;> rfl

private theorem closeEvaluation_snd (e : Engine) : e.closeEvaluation.2 = kept? e.core.flush := by
  show (if e.core.flush.output.isCapturing then _ else _ : Option String × Output).1 = _
  unfold kept?
  split <;> rfl

section

variable {e e₁ : Engine} (evaluation : Evaluation) (code : String)

private theorem evaluate_of_error {failure : Failure} (h : e.ensureScratch = (e₁, .error failure)) :
    (e.evaluate evaluation code).2 = .error failure := by
  simp only [evaluate, h]

private theorem sessionEvents_of_error {failure : Failure}
    (h : e.ensureScratch = (e₁, .error failure)) : e.sessionEvents evaluation code = [] := by
  simp only [sessionEvents, h]

private theorem evaluate_of_ok {id : ScriptId} (h : e.ensureScratch = (e₁, .ok id)) :
    (e.evaluate evaluation code).2 = .ok (e₁.session id evaluation [.text code]).2 := by
  simp only [evaluate, h, session]

/-- The events of a session are those that come after it was opened. -/
theorem sessionEvents_of_ok {id : ScriptId} {told : List Event}
    (h : e.ensureScratch = (e₁, .ok id))
    (events : (e₁.session id evaluation [.text code]).1.core.events =
      e₁.core.flush.events ++ told.toArray) : e.sessionEvents evaluation code = told := by
  have before : (e₁.openEvaluation evaluation).core.events = e₁.core.flush.events := rfl
  simp [sessionEvents, h, events, before]

end

/-- Before the session everything is delivered. -/
theorem buffer_openEvaluation {e : Engine} (idle : e.core.output.evaluation = none)
    (evaluation : Evaluation) : (e.openEvaluation evaluation).core.output.buffer = "" := by
  have still : e.core.flush.output.evaluation = none := e.core.evaluation_flush.trans idle
  exact Core.buffer_flush (Output.isCapturing_of_none still)

/-- Sessions that are opened with related cores end with related cores. When these are flushed, they
show the results and what the host was told. -/
theorem session_related {R : Core → Core → Prop} (S : Core.Simulation R) {e f : Engine}
    {evaluation evaluation' : Evaluation} {d : Core}
    (opened : R (e.openEvaluation evaluation).core d)
    (other : f.openEvaluation evaluation' = (e.openEvaluation evaluation).withCore d)
    (id : ScriptId) (arguments : List Argument) :
    ∃ c d, R c d ∧
      (e.session id evaluation arguments).1.core.events = c.flush.events ∧
      (e.session id evaluation arguments).2 = kept? c.flush ∧
      (f.session id evaluation' arguments).1.core.events = d.flush.events ∧
      (f.session id evaluation' arguments).2 = kept? d.flush := by
  obtain ⟨d₁, called, same⟩ := S.invoke opened id .ignored scratchFunction arguments
  refine ⟨_, _, called, events_closeEvaluation _, closeEvaluation_snd _, ?_, ?_⟩
  · rw [session, other, same, events_closeEvaluation]
    rfl
  · rw [session, other, same, closeEvaluation_snd]
    rfl

/-- Engines that differ in what scripts cannot see evaluate code in the same way. -/
theorem session_abreast {e : Engine} {d : Core} (h : Idle e.core d) (id : ScriptId)
    (evaluation : Evaluation) (arguments : List Argument) :
    ((e.withCore d).session id evaluation arguments).2 = (e.session id evaluation arguments).2 ∧
    ∃ told : List Event,
      (e.session id evaluation arguments).1.core.events = e.core.flush.events ++ told.toArray ∧
      ((e.withCore d).session id evaluation arguments).1.core.events =
        d.flush.events ++ told.toArray := by
  have opened : Abreast e.core.flush.events d.flush.events (e.openEvaluation evaluation).core
      ((e.withCore d).openEvaluation evaluation).core := by
    refine ⟨?_, ?_, [], Array.append_empty.symm, Array.append_empty.symm⟩
    · show e.core.flush.muted = d.flush.muted
      rw [Core.muted_flush, Core.muted_flush, h.muted]
    · -- The outputs may have differed, but all that waited was delivered on opening.
      have left := buffer_openEvaluation h.left evaluation
      have right := buffer_openEvaluation (e := e.withCore d) h.right evaluation
      exact congrArg (Output.mk · (some evaluation)) (left.trans right.symm)
  have S := Core.simulation_abreast e.core.flush.events d.flush.events
  obtain ⟨c₁, d₁, related, events, result, events', result'⟩ :=
    session_related S opened rfl id arguments
  have flushed := S.flush related
  obtain ⟨told, left, right⟩ := flushed.events
  refine ⟨?_, told, events.trans left, events'.trans right⟩
  rw [result, result', kept?, kept?, flushed.output]

/-- What one session keeps is what another one delivers. -/
theorem session_told {e : Engine} (idle : e.core.output.evaluation = none) (id : ScriptId)
    (arguments : List Argument) {keeping delivering : Evaluation} {b : Handle}
    (keeps : keeping.buffer = none) (forwards : delivering.Forwards b) :
    ∃ told : List Event,
      (e.session id delivering arguments).1.core.events = e.core.flush.events ++ told.toArray ∧
      (e.session id keeping arguments).1.core.events =
        e.core.flush.events ++ (told.filter fun event => (event.textTo? b).isNone).toArray ∧
      (e.session id keeping arguments).2 = some (String.join (told.filterMap (Event.textTo? b))) ∧
      (e.session id delivering arguments).2 = none ∧
      ∀ event ∈ told, event.textTo? b = none → ¬event.IsDelivery := by
  have opened : Session b e.core.flush.events (e.openEvaluation keeping).core
      (e.openEvaluation delivering).core := by
    have nothing := (buffer_openEvaluation idle keeping).trans
      (buffer_openEvaluation idle delivering).symm
    refine ⟨rfl, ?_, ⟨delivering, rfl, forwards⟩, [], Array.append_empty.symm,
      Array.append_empty.symm, nothing.trans String.empty_append.symm, List.forall_mem_nil _⟩
    show keeping.buffer.isNone = true
    rw [keeps]
    rfl
  have S := Core.simulation_session b e.core.flush.events
  obtain ⟨c₁, d₁, related, events, result, events', result'⟩ :=
    session_related S opened rfl id arguments
  obtain ⟨-, capturing, ⟨evaluation, open_, still⟩, told, delivered, left, text, others⟩ :=
    S.flush related
  have delivers : d₁.flush.output.isCapturing = false := by
    simp [Output.isCapturing, open_, still.buffer]
  refine ⟨told, events'.trans delivered, events.trans left, ?_, ?_, others⟩
  · rw [result, kept?, if_pos capturing, text, Core.buffer_flush delivers, String.append_empty]
  · rw [result', kept?, delivers]
    rfl

/-- Whether the scratch script is there does not depend on what waits to be delivered. -/
theorem ensureScratch_idle {e : Engine} {d : Core} (h : Idle e.core d) :
    ∃ d₁, Idle e.ensureScratch.1.core d₁ ∧
      (e.withCore d).ensureScratch = (e.ensureScratch.1.withCore d₁, e.ensureScratch.2) :=
  Core.simulation_idle.ensureScratch h

/-- What waits to be delivered, and what was asked for, has no part in an evaluation. -/
theorem evaluate_idle {e : Engine} {d : Core} (h : Idle e.core d) (evaluation : Evaluation)
    (code : String) :
    ((e.withCore d).evaluate evaluation code).2 = (e.evaluate evaluation code).2 ∧
      (e.withCore d).sessionEvents evaluation code = e.sessionEvents evaluation code := by
  obtain ⟨d₁, idle, same⟩ := ensureScratch_idle h
  rcases hs : e.ensureScratch with ⟨e₁, failure | id⟩
  · rw [hs] at same
    rw [evaluate_of_error _ code hs, sessionEvents_of_error _ code hs]
    exact ⟨evaluate_of_error _ code same, sessionEvents_of_error _ code same⟩
  · rw [hs] at same idle
    obtain ⟨result, told, left, right⟩ := session_abreast idle id evaluation [.text code]
    rw [evaluate_of_ok _ code hs, sessionEvents_of_ok _ code hs left, ← result]
    exact ⟨evaluate_of_ok _ code same, sessionEvents_of_ok _ code same right⟩

/-- An evaluation that keeps its output returns the texts that the same evaluation delivers to a
buffer, one after the other. Apart from these texts the host is told the same while the session is
open, and nothing of it is output. Text that waited before the evaluation makes no difference to
the result nor to what the host is told while the session is open. -/
theorem evaluations_agree {e : Engine} (h : e.Reachable) (code : String) :
    (∀ (b : Handle) (keeping delivering : Evaluation),
      keeping.buffer = none → delivering.Forwards b →
      (e.evaluate keeping code).2 = e.ensureScratch.2.map (fun _ =>
        some (String.join ((e.sessionEvents delivering code).filterMap (Event.textTo? b)))) ∧
      (e.evaluate delivering code).2 = e.ensureScratch.2.map (fun _ => none) ∧
      e.sessionEvents keeping code =
        (e.sessionEvents delivering code).filter (fun event => (event.textTo? b).isNone) ∧
      ∀ event ∈ e.sessionEvents keeping code, ¬event.IsDelivery) ∧
    ∀ (stale : String) (evaluation : Evaluation),
      ((e.withPending stale).evaluate evaluation code).2 = (e.evaluate evaluation code).2 ∧
      (e.withPending stale).sessionEvents evaluation code = e.sessionEvents evaluation code := by
  constructor
  · intro b keeping delivering keeps forwards
    obtain ⟨-, ⟨-, idle, -⟩, -⟩ := ensureScratch_idle (e := e) ⟨rfl, h.evaluation, h.evaluation⟩
    rcases hs : e.ensureScratch with ⟨e₁, failure | id⟩
    · -- Without a scratch script no session is opened.
      rw [evaluate_of_error _ code hs, evaluate_of_error _ code hs,
        sessionEvents_of_error _ code hs, sessionEvents_of_error _ code hs]
      exact ⟨rfl, rfl, rfl, List.forall_mem_nil _⟩
    · rw [hs] at idle
      obtain ⟨told, delivered, left, text, nothing, plain⟩ :=
        session_told idle id [.text code] keeps forwards
      rw [evaluate_of_ok _ code hs, evaluate_of_ok _ code hs,
        sessionEvents_of_ok _ code hs delivered, sessionEvents_of_ok _ code hs left, text, nothing]
      refine ⟨rfl, rfl, rfl, ?_⟩
      intro event mem
      obtain ⟨among, away⟩ := List.mem_filter.mp mem
      exact plain event among (Option.isNone_iff_eq_none.mp away)
  · intro stale evaluation
    have pending : Idle e.core (e.withPending stale).core := ⟨rfl, h.evaluation, h.evaluation⟩
    exact evaluate_idle pending evaluation code

/-- Code that ends in an unfinished line. -/
def twoTexts : String := "print('a') io.write('/b')"

set_option maxRecDepth 100000 in
/-- The case of code that ends in an unfinished line. -/
theorem evaluations_agree_bare :
    bare.sessionEvents ⟨some ⟨0x99⟩, true, true⟩ twoTexts =
        [.command ⟨0x99⟩ "a", .command ⟨0x99⟩ "/b"] ∧
      bare.sessionEvents ⟨none, false, false⟩ twoTexts = [] ∧
      (bare.evaluate ⟨none, false, false⟩ twoTexts).2 = .ok (some "a/b") ∧
      ((bare.withPending "left").evaluate ⟨none, false, false⟩ twoTexts).2 = .ok (some "a/b") := by
  have told : bare.sessionEvents ⟨some ⟨0x99⟩, true, true⟩ twoTexts =
      [.command ⟨0x99⟩ "a", .command ⟨0x99⟩ "/b"] := by
    decide +kernel
  have agree := evaluations_agree reachable_bare twoTexts
  obtain ⟨text, -, others, -⟩ := agree.1 ⟨0x99⟩ ⟨none, false, false⟩ ⟨some ⟨0x99⟩, true, true⟩ rfl
    ⟨rfl, fun _ => rfl⟩
  have result : (bare.evaluate ⟨none, false, false⟩ twoTexts).2 = .ok (some "a/b") := by
    rcases hs : bare.ensureScratch with ⟨e₁, failure | id⟩
    · rw [sessionEvents_of_error _ _ hs] at told
      cases told
    · rw [text, told, hs]
      rfl
  refine ⟨told, ?_, result, ?_⟩
  · rw [others, told]
    rfl
  · rw [(agree.2 "left" ⟨none, false, false⟩).1, result]

end LuaHost.Engine
