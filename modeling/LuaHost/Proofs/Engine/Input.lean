import LuaHost.Proofs.Core.Input
import LuaHost.Proofs.Engine.Delivery
import LuaHost.Proofs.Engine.Simulation

/-!
# Evaluations that send input

What an evaluation sends to a buffer as input without commands is what the same evaluation prints
there, line by line, in words that no host takes for a command. Nothing else is sent as input, not
while the scratch script is loaded nor while it is unloaded.
-/

namespace LuaHost

/-- Output that is sent as input or printed is not kept. -/
theorem Core.TypesFor.isCapturing {b : Handle} {o o' : Output}
    (h : Core.TypesFor b o.evaluation o'.evaluation) :
    o.isCapturing = false ∧ o'.isCapturing = false := by
  unfold Output.isCapturing
  generalize o.evaluation = left at h
  generalize o'.evaluation = right at h
  cases h <;> exact ⟨rfl, rfl⟩

namespace Engine

open LuaHost.Core (Typing TypesFor simulation_typing)

/-- The end of an evaluation whose output is delivered. -/
theorem closeEvaluation_of_not_isCapturing {e : Engine}
    (h : e.core.flush.output.isCapturing = false) :
    e.closeEvaluation.1 = (e.updateCore Core.flush).updateCore fun c =>
      { c with output := { c.output with evaluation := none } } := by
  have delivers : ¬(e.updateCore Core.flush).core.output.isCapturing = true :=
    Bool.eq_false_iff.mp h
  unfold closeEvaluation
  dsimp only
  rw [if_neg delivers]
  rfl

section

variable {b : Handle} {before : Array Event} {e : Engine} {d : Core}
  (h : Typing b before e.core d)
include h

private theorem typing_openEvaluation :
    Alike (Typing b before) (e.openEvaluation ⟨some b, true, false⟩)
      ((e.withCore d).openEvaluation ⟨some b, false, false⟩) := by
  have flushed := (simulation_typing b before).flush h
  exact ⟨((e.withCore d).openEvaluation ⟨some b, false, false⟩).core,
    ⟨flushed.muted, flushed.buffer, .session, flushed.told⟩, rfl⟩

private theorem typing_closeEvaluation :
    Alike (Typing b before) e.closeEvaluation.1 (e.withCore d).closeEvaluation.1 := by
  have flushed := (simulation_typing b before).flush h
  obtain ⟨left, right⟩ := flushed.evaluation.isCapturing
  rw [closeEvaluation_of_not_isCapturing left,
    closeEvaluation_of_not_isCapturing (e := e.withCore d) right]
  exact ⟨{ d.flush with output := { d.flush.output with evaluation := none } },
    ⟨flushed.muted, flushed.buffer, .idle, flushed.told⟩, rfl⟩

private theorem typing_evaluated (id : ScriptId) (arguments : List Argument) :
    Alike (Typing b before) (e.evaluated id ⟨some b, true, false⟩ arguments)
      ((e.withCore d).evaluated id ⟨some b, false, false⟩ arguments) := by
  obtain ⟨d₁, h₁, opened⟩ := typing_openEvaluation h
  obtain ⟨d₂, h₂, called⟩ :=
    (simulation_typing b before).invoke h₁ id .ignored scratchFunction arguments
  unfold evaluated
  rw [opened, called]
  exact typing_closeEvaluation h₂

/-- From the load of the scratch script to its end, an evaluation sends as input what another one
prints. -/
theorem typing_evaluate (code : String) :
    Typing b before (e.evaluate ⟨some b, true, false⟩ code).1.core
      ((e.withCore d).evaluate ⟨some b, false, false⟩ code).1.core := by
  have S := simulation_typing b before
  obtain ⟨d₁, h₁, ensured⟩ := S.ensureScratch h
  rw [evaluate_eq, evaluate_eq, ensured]
  generalize e.ensureScratch = result at h₁ ⊢
  obtain ⟨e₁, failure | id⟩ := result
  · exact h₁
  · obtain ⟨d₂, h₂, ran⟩ := typing_evaluated h₁ id [.text code]
    obtain ⟨d₃, h₃, dropped⟩ := S.dropScratch h₂ id
    dsimp only
    rw [ran, dropped]
    exact h₃

end

/-- An evaluation tells the host the same whether its output is printed to a buffer or sent there
as input without commands, but for every line that it prints to the buffer, for which a text is sent
instead. The text is plain, and if the line is a directive, the text means the line. Nothing else is
sent as input. -/
theorem input_confined {e : Engine} (h : e.Reachable) (b : Handle) (code : String) :
    ∃ told : List Event,
      (e.evaluate ⟨some b, false, false⟩ code).1.core.events = e.core.events ++ told.toArray ∧
      (e.evaluate ⟨some b, true, false⟩ code).1.core.events =
        e.core.events ++ (told.map (Event.asInput b)).toArray ∧
      (told.map (Event.asInput b)).filterMap Event.command? =
        (told.filterMap (Event.textTo? b)).map (fun line => (b, Delivery.inputText line false)) ∧
      ∀ line ∈ told.filterMap (Event.textTo? b),
        (Directive.plain? (Delivery.inputText line false)).isSome = true ∧
          (Directive.plain? line = none →
            Directive.plain? (Delivery.inputText line false) = some line) := by
  have started : Typing b e.core.events e.core e.core := by
    refine ⟨rfl, rfl, ?_, [], Array.append_empty.symm, Array.append_empty.symm,
      List.forall_mem_nil _⟩
    rw [h.evaluation]
    exact .idle
  obtain ⟨told, printed, typed, unsent⟩ := (typing_evaluate started code).told
  exact ⟨told, printed, typed, Event.filterMap_command?_asInput b unsent,
    fun line _ => Delivery.plain?_inputText line⟩

/-- Code that prints a directive, a comment and plain text. -/
def threeLines : String := "print('/quit') print('/* x') io.write('a')"

set_option maxRecDepth 100000 in
/-- The case of a directive, a comment and plain text. -/
theorem input_confined_bare :
    ∃ sent : List Event,
      (bare.evaluate ⟨some ⟨0x99⟩, true, false⟩ threeLines).1.core.events = sent.toArray ∧
      sent.filterMap Event.command? = [(⟨0x99⟩, "//quit"), (⟨0x99⟩, "/* x"), (⟨0x99⟩, "a")] ∧
      Directive.plain? "//quit" = some "/quit" := by
  obtain ⟨told, printed, typed, sent, plain⟩ := input_confined reachable_bare ⟨0x99⟩ threeLines
  have lines : (bare.evaluate ⟨some ⟨0x99⟩, false, false⟩ threeLines).1.core.events.toList.filterMap
      (Event.textTo? ⟨0x99⟩) = ["/quit", "/* x", "a"] := by
    decide +kernel
  have start : bare.core.events = #[] := rfl
  rw [printed, start, Array.empty_append] at lines
  rw [start, Array.empty_append] at typed
  rw [lines] at sent plain
  refine ⟨_, typed, sent, ?_⟩
  exact (plain "/quit" List.mem_cons_self).2 (by decide)

end Engine

end LuaHost
