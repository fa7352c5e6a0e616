import LuaHost.Proofs.Core.Lines
import LuaHost.Proofs.Core.Simulation

/-!
# Cores that run the same code

Three ways in which two cores can differ while they run the same scripts: their output is not
compared at all, it is the same from some time on, or the one keeps what the other delivers to a
buffer.
-/

namespace LuaHost

/-- The text that an event brings to a buffer. -/
def Event.textTo? (b : Handle) : Event → Option String
  | .print (some buffer) line => if buffer = b then some line else none
  | .command buffer text => if buffer = b then some text else none
  | _ => none

/-- Only deliveries bring text to a buffer. -/
theorem Event.textTo?_of_not_isDelivery {event : Event} (h : ¬event.IsDelivery) (b : Handle) :
    event.textTo? b = none := by
  cases event with
  | print buffer line =>
    cases buffer with
    | none => rfl
    | some buffer => exact absurd ⟨.print buffer line, rfl⟩ h
  | command buffer text => exact absurd ⟨.input buffer text true, rfl⟩ h
  | signal | callbacks => rfl

/-- Output goes to a buffer as it was printed: as lines, or as input with commands. -/
structure Evaluation.Forwards (evaluation : Evaluation) (b : Handle) : Prop where
  buffer : evaluation.buffer = some b
  verbatim : evaluation.sendInput = true → evaluation.execCommands = true

private theorem Output.textTo?_of_delivery? {o : Output} {evaluation : Evaluation} {b : Handle}
    {script : Option String} {d : Delivery} (open_ : o.evaluation = some evaluation)
    (forwards : evaluation.Forwards b) (h : o.delivery? script = some d) :
    d.event.textTo? b = some o.buffer := by
  unfold delivery? at h
  split at h
  · cases h
  · simp only [open_, forwards.buffer, Option.map_some, Option.some.injEq] at h
    subst h
    split
    · next input =>
      simp [Delivery.event, Delivery.inputText, forwards.verbatim input, Event.textTo?]
    · simp [Delivery.event, Event.textTo?]

namespace Core

/-- A flush keeps the evaluation in progress. -/
theorem evaluation_flush (c : Core) : c.flush.output.evaluation = c.output.evaluation := by
  cases h : c.output.delivery? c.activeName? with
  | none => rw [flush_of_none h]
  | some d => rw [flush_of_some h, emit]

/-- But for output and events a flush changes nothing. -/
theorem muted_flush (c : Core) : c.flush.muted = c.muted := by
  cases h : c.output.delivery? c.activeName? with
  | none => rw [flush_of_none h]
  | some d => rw [flush_of_some h, emit, muted, muted]

/-! ### No evaluation -/

/-- Cores without an evaluation that scripts cannot tell apart. -/
structure Idle (c d : Core) : Prop where
  muted : c.muted = d.muted
  left : c.output.evaluation = none
  right : d.output.evaluation = none

private theorem mutedSimulation_idle : MutedSimulation Idle where
  muted h := h.muted
  silent h silent :=
    ⟨silent.congr h.muted, by rw [silent.output, h.left], by rw [silent.output, h.right]⟩
  emit h _ := ⟨h.muted, h.left, h.right⟩
  push _ h := ⟨h.muted, h.left, h.right⟩
  flush {c d} h :=
    ⟨by rw [c.muted_flush, d.muted_flush, h.muted], c.evaluation_flush.trans h.left,
      d.evaluation_flush.trans h.right⟩

/-- Scripts cannot tell two cores apart that differ in output and events, with no evaluation in
progress. -/
theorem simulation_idle : Simulation Idle := mutedSimulation_idle.simulation

/-! ### The same output -/

/-- Cores with the same output that have told the host the same since some time. -/
structure Abreast (before before' : Array Event) (c d : Core) : Prop where
  muted : c.muted = d.muted
  output : c.output = d.output
  events : ∃ told : List Event,
    c.events = before ++ told.toArray ∧ d.events = before' ++ told.toArray

private theorem mutedSimulation_abreast (before before' : Array Event) :
    MutedSimulation (Abreast before before') where
  muted h := h.muted
  silent h silent :=
    ⟨silent.congr h.muted, by rw [silent.output, silent.output, h.output],
      by rw [silent.events, silent.events]; exact h.events⟩
  emit {c d event} h _ := by
    obtain ⟨told, left, right⟩ := h.events
    exact ⟨h.muted, h.output, told ++ [event], by simp [emit, left], by simp [emit, right]⟩
  push text h := ⟨h.muted, by simp only [push, h.output], h.events⟩
  flush {c d} h := by
    have name := activeName?_eq_of_muted h.muted
    obtain ⟨told, left, right⟩ := h.events
    cases hc : c.output.delivery? c.activeName? with
    | none =>
      have hd : d.output.delivery? d.activeName? = none := by rw [← h.output, ← name, hc]
      rw [flush_of_none hc, flush_of_none hd]
      exact h
    | some handed =>
      have hd : d.output.delivery? d.activeName? = some handed := by rw [← h.output, ← name, hc]
      rw [flush_of_some hc, flush_of_some hd]
      exact ⟨h.muted, by simp only [emit, h.output],
        told ++ [handed.event], by simp [emit, left], by simp [emit, right]⟩

/-- Scripts cannot tell two cores apart that print and tell the same. -/
theorem simulation_abreast (before before' : Array Event) :
    Simulation (Abreast before before') := (mutedSimulation_abreast before before').simulation

/-! ### Output that is kept and output that is delivered -/

/-- What a host was told while one core kept the output that the other delivered to a buffer: the
texts for the buffer come first in what is kept, and without them the host was told the same. -/
structure Told (b : Handle) (before : Array Event) (c d : Core) (told : List Event) : Prop where
  delivered : d.events = before ++ told.toArray
  kept : c.events = before ++ (told.filter fun event => (event.textTo? b).isNone).toArray
  text : c.output.buffer = String.join (told.filterMap (Event.textTo? b)) ++ d.output.buffer
  others : ∀ event ∈ told, event.textTo? b = none → ¬event.IsDelivery

/-- Cores of which the one keeps the output that the other delivers to a buffer. -/
structure Session (b : Handle) (before : Array Event) (c d : Core) : Prop where
  muted : c.muted = d.muted
  keeps : c.output.isCapturing = true
  delivers : ∃ evaluation, d.output.evaluation = some evaluation ∧ evaluation.Forwards b
  told : ∃ told, Told b before c d told

private theorem mutedSimulation_session (b : Handle) (before : Array Event) :
    MutedSimulation (Session b before) where
  muted h := h.muted
  silent h silent := by
    obtain ⟨told, delivered, kept, text, others⟩ := h.told
    refine ⟨silent.congr h.muted, by rw [silent.output]; exact h.keeps,
      by rw [silent.output]; exact h.delivers, told, ?_, ?_, ?_, others⟩
    · rw [silent.events, delivered]
    · rw [silent.events, kept]
    · rw [silent.output, silent.output, text]
  emit {c d event} h plain := by
    obtain ⟨told, delivered, kept, text, others⟩ := h.told
    have away := Event.textTo?_of_not_isDelivery plain b
    refine ⟨h.muted, h.keeps, h.delivers, told ++ [event], ?_, ?_, ?_, ?_⟩
    · simp [emit, delivered]
    · simp [emit, kept, away]
    · simpa [emit, away] using text
    · exact List.forall_mem_append.mpr ⟨others, List.forall_mem_singleton.mpr fun _ => plain⟩
  push {c d} text h := by
    obtain ⟨told, delivered, kept, joined, others⟩ := h.told
    refine ⟨h.muted, h.keeps, h.delivers, told, delivered, kept, ?_, others⟩
    simp only [push, Output.push, joined, String.append_assoc]
  flush {c d} h := by
    obtain ⟨evaluation, open_, forwards⟩ := h.delivers
    obtain ⟨told, delivered, kept, text, others⟩ := h.told
    -- The first core hands nothing over: it keeps what the second one may send now.
    rw [flush_of_isCapturing h.keeps]
    cases hd : d.output.delivery? d.activeName? with
    | none =>
      rw [flush_of_none hd]
      exact h
    | some handed =>
      have sent := Output.textTo?_of_delivery? open_ forwards hd
      rw [flush_of_some hd]
      refine ⟨h.muted, h.keeps, h.delivers, told ++ [handed.event], ?_, ?_, ?_, ?_⟩
      · simp [emit, delivered]
      · simp [kept, sent]
      · simp [emit, text, sent]
      · refine List.forall_mem_append.mpr ⟨others, List.forall_mem_singleton.mpr fun nowhere => ?_⟩
        rw [sent] at nowhere
        cases nowhere

/-- Scripts cannot tell whether their output is kept or delivered to a buffer. -/
theorem simulation_session (b : Handle) (before : Array Event) :
    Simulation (Session b before) := (mutedSimulation_session b before).simulation

end Core

end LuaHost
