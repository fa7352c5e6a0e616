import LuaHost.Proofs.Core.Sessions
import Mathlib.Data.List.Basic

/-!
# Output that is sent as input

Lines that are sent as input without commands are read back as the text they show. A core that sends
them so tells its host just what a core tells that prints them, with every line for the buffer put
in the words that stand for it.
-/

namespace LuaHost

namespace Directive

/-- A directive starts with a slash, and another slash in front of it makes it plain. -/
theorem plain?_escape {text : String} (h : plain? text = none) :
    plain? (escape text) = some text := by
  have directive : plainChars? text.toList = none := by simpa [plain?] using h
  obtain ⟨rest, hrest⟩ : ∃ rest, text.toList = '/' :: rest := by
    unfold plainChars? at directive
    split at directive
    · next rest heq => exact ⟨rest, heq⟩
    · cases directive
  have escaped : (escape text).toList = '/' :: '/' :: rest := by
    simp only [escape, hrest, String.toList_ofList]
  rw [plain?, escaped, plainChars?, ← hrest, Option.map_some, String.ofList_toList]

end Directive

open Directive (plain?)

/-- What is sent for a line without commands is plain. If the line is a directive, it means the
line. -/
theorem Delivery.plain?_inputText (line : String) :
    (plain? (inputText line false)).isSome = true ∧
      (plain? line = none → plain? (inputText line false) = some line) := by
  cases h : plain? line with
  | none =>
    have sent : inputText line false = Directive.escape line := by simp [inputText, h]
    rw [sent, Directive.plain?_escape h]
    exact ⟨rfl, fun _ => rfl⟩
  | some text =>
    have sent : inputText line false = line := by simp [inputText, h]
    rw [sent, h]
    refine ⟨rfl, fun directive => ?_⟩
    cases directive

namespace Event

/-- The buffer that an event sends input to, and the text sent. -/
def command? : Event → Option (Handle × String)
  | .command buffer text => some (buffer, text)
  | _ => none

/-- The event with a line for a buffer sent as input without commands instead. -/
def asInput (b : Handle) : Event → Event
  | .print (some buffer) line =>
    if buffer = b then .command b (Delivery.inputText line false) else .print (some buffer) line
  | event => event

/-- Only deliveries send input. -/
theorem command?_of_not_isDelivery {event : Event} (h : ¬event.IsDelivery) :
    event.command? = none := by
  cases event with
  | command buffer text => exact absurd ⟨.input buffer text true, rfl⟩ h
  | print | signal | callbacks => rfl

private theorem asInput_of_not_isDelivery {event : Event} (h : ¬event.IsDelivery) (b : Handle) :
    event.asInput b = event := by
  cases event with
  | print buffer line =>
    cases buffer with
    | none => rfl
    | some buffer => exact absurd ⟨.print buffer line, rfl⟩ h
  | command | signal | callbacks => rfl

/-- Where nothing was sent as input before, the lines for the buffer are sent now and nothing
else is. -/
theorem filterMap_command?_asInput (b : Handle) {told : List Event}
    (unsent : ∀ event ∈ told, event.command? = none) :
    (told.map (asInput b)).filterMap command? =
      (told.filterMap (textTo? b)).map fun line => (b, Delivery.inputText line false) := by
  rw [List.filterMap_map, List.map_filterMap]
  refine List.filterMap_congr fun event mem => ?_
  have silent := unsent event mem
  cases event with
  | print buffer line =>
    cases buffer with
    | none => rfl
    | some buffer => by_cases same : buffer = b <;> simp [asInput, command?, textTo?, same]
  | command => cases silent
  | signal | callbacks => rfl

end Event

namespace Core

/-- The evaluations of two cores: none is in progress, or the one sends as input without commands
what the other prints to the same buffer. -/
inductive TypesFor (b : Handle) : Option Evaluation → Option Evaluation → Prop where
  | idle : TypesFor b none none
  | session : TypesFor b (some ⟨some b, true, false⟩) (some ⟨some b, false, false⟩)

/-- Cores of which the one sends as input without commands what the other prints to a buffer. -/
structure Typing (b : Handle) (before : Array Event) (c d : Core) : Prop where
  muted : c.muted = d.muted
  buffer : c.output.buffer = d.output.buffer
  evaluation : TypesFor b c.output.evaluation d.output.evaluation
  told : ∃ told : List Event, d.events = before ++ told.toArray ∧
    c.events = before ++ (told.map (Event.asInput b)).toArray ∧
    ∀ event ∈ told, event.command? = none

/-- Related deliveries: the one sends as input what the other prints. -/
theorem TypesFor.delivery? {b : Handle} {o o' : Output}
    (evaluation : TypesFor b o.evaluation o'.evaluation) (buffer : o.buffer = o'.buffer)
    (script : Option String) :
    (o.delivery? script = none ∧ o'.delivery? script = none) ∨
      ∃ d d', o.delivery? script = some d ∧ o'.delivery? script = some d' ∧
        d.event = d'.event.asInput b ∧ d'.event.command? = none := by
  unfold Output.delivery?
  rw [buffer]
  by_cases empty : o'.buffer.isEmpty = true
  · rw [if_pos empty, if_pos empty]
    exact .inl ⟨rfl, rfl⟩
  · rw [if_neg empty, if_neg empty]
    refine .inr ?_
    generalize o.evaluation = left at evaluation
    generalize o'.evaluation = right at evaluation
    cases evaluation with
    | idle => exact ⟨_, _, rfl, rfl, rfl, rfl⟩
    | session =>
      exact ⟨.input b o'.buffer false, .print b o'.buffer, rfl, rfl,
        by simp [Delivery.event, Event.asInput], rfl⟩

private theorem mutedSimulation_typing (b : Handle) (before : Array Event) :
    MutedSimulation (Typing b before) where
  muted h := h.muted
  silent h silent := by
    refine ⟨silent.congr h.muted, ?_, ?_, ?_⟩
    · rw [silent.output, silent.output, h.buffer]
    · rw [silent.output, silent.output]
      exact h.evaluation
    · rw [silent.events, silent.events]
      exact h.told
  emit {c d event} h plain := by
    obtain ⟨told, printed, typed, unsent⟩ := h.told
    have same := Event.asInput_of_not_isDelivery plain b
    refine ⟨h.muted, h.buffer, h.evaluation, told ++ [event], by simp [emit, printed],
      by simp [emit, typed, same], ?_⟩
    exact List.forall_mem_append.mpr
      ⟨unsent, List.forall_mem_singleton.mpr (Event.command?_of_not_isDelivery plain)⟩
  push text h := ⟨h.muted, congrArg (· ++ text) h.buffer, h.evaluation, h.told⟩
  flush {c d} h := by
    have name := activeName?_eq_of_muted h.muted
    obtain ⟨told, printed, typed, unsent⟩ := h.told
    obtain ⟨hc, hd⟩ | ⟨handed, handed', hc, hd, event, silent⟩ :=
      h.evaluation.delivery? h.buffer d.activeName?
    · rw [flush_of_none (name ▸ hc), flush_of_none hd]
      exact h
    · rw [flush_of_some (name ▸ hc), flush_of_some hd]
      refine ⟨h.muted, rfl, h.evaluation, told ++ [handed'.event], by simp [emit, printed],
        by simp [emit, typed, event], ?_⟩
      exact List.forall_mem_append.mpr ⟨unsent, List.forall_mem_singleton.mpr silent⟩

/-- Scripts cannot tell apart a core that types for a buffer and one that prints to it. -/
theorem simulation_typing (b : Handle) (before : Array Event) :
    Simulation (Typing b before) := (mutedSimulation_typing b before).simulation

end Core

end LuaHost
