import LuaHost.Proofs.Core.Dialogue
import LuaHost.Proofs.Core.Lines

/-!
# Under whose name output is printed

Without an evaluation output goes to the core buffer of the host, in lines under the name of the
script that is active. The lines that a dialogue adds are those of the texts that were written in
it, whatever else was asked in between.
-/

namespace LuaHost

/-- The event prints a line of output on the core buffer, under whatever name. -/
def Event.isOutput : Event → Bool
  | .print none line => (engineName ++ ": stdout/stderr (").toList.isPrefixOf line.toList
  | _ => false

private theorem Delivery.isOutput_log (script : Option String) (text : String) :
    (Delivery.log script text).event.isOutput = true := by
  simp [Delivery.event, Event.isOutput, String.toList_append, List.append_assoc]

private theorem Event.isOutput_complaint (message : String) :
    (Event.print none (errorMark ++ engineName ++ ": " ++ message)).isOutput = false := by
  simp [Event.isOutput, errorMark, engineName, List.isPrefixOf]

/-- The lines of texts that are written one after the other, but for empty ones. -/
def printedLines (texts : List String) : List String :=
  (((texts.flatMap String.toList).splitOn '\n').filter (· ≠ [])).map String.ofList

/-- The events that print the lines of texts under the name of a script. -/
def logged (script : Option String) (texts : List String) : List Event :=
  (printedLines texts).map fun line => (Delivery.log script line).event

/-- An empty text adds no line. -/
theorem logged_empty_cons (script : Option String) (texts : List String) :
    logged script ("" :: texts) = logged script texts := rfl

namespace Core

open Lua (HostCall Reply)

/-- The lines of output on the core buffer. -/
def outputs (c : Core) : List Event := c.events.toList.filter Event.isOutput

/-- The texts that are written in a dialogue. -/
def written (talk : List (HostCall × Reply)) : List String :=
  talk.filterMap fun
    | (.write text, _) => some text
    | _ => none

/-- An event adds the line of output it is, if it is one. -/
theorem outputs_emit (c : Core) (event : Event) :
    (c.emit event).outputs = c.outputs ++ if event.isOutput then [event] else [] := by
  simp only [outputs, emit, Array.toList_push, List.filter_append, List.filter_cons,
    List.filter_nil]

private theorem outputs_complain (c : Core) (message : String) :
    (c.complain message).outputs = c.outputs := by
  rw [complain, print, outputs_emit, Event.isOutput_complaint]
  exact List.append_nil _

/-- Which script is active makes no difference to what was printed. -/
theorem outputs_restore (c : Core) (previous : Option ScriptId) :
    (c.restore previous).outputs = c.outputs := rfl

/-- The name that output is printed under is kept. -/
theorem Kept.activeName? {c c' : Core} (h : c.Kept c') : c'.activeName? = c.activeName? := by
  rw [Core.activeName?, h.active, h.registry, Core.activeName?]

/-! ### Cores that sound the same -/

/-- What is printed next is printed after the same lines, and under the same name. -/
structure SameVoice (c c' : Core) : Prop where
  output : c'.output = c.output
  outputs : c'.outputs = c.outputs
  name : c'.activeName? = c.activeName?

namespace SameVoice

variable {a b c : Core}

private theorem refl (c : Core) : c.SameVoice c := ⟨rfl, rfl, rfl⟩

private theorem trans (h : a.SameVoice b) (h' : b.SameVoice c) : a.SameVoice c :=
  ⟨h'.output.trans h.output, h'.outputs.trans h.outputs, h'.name.trans h.name⟩

private theorem push (h : a.SameVoice b) (text : String) : (a.push text).SameVoice (b.push text) :=
  ⟨congrArg (·.push text) h.output, h.outputs, h.name⟩

/-- A flush prints the same in both cores. -/
theorem flush (h : a.SameVoice b) : a.flush.SameVoice b.flush := by
  have same : b.output.delivery? b.activeName? = a.output.delivery? a.activeName? := by
    rw [h.output, h.name]
  cases hd : a.output.delivery? a.activeName? with
  | none =>
    rw [flush_of_none hd, flush_of_none (same.trans hd)]
    exact h
  | some d =>
    rw [flush_of_some hd, flush_of_some (same.trans hd)]
    refine ⟨congrArg (fun o : Output => { o with buffer := "" }) h.output, ?_, h.name⟩
    rw [outputs_emit, outputs_emit]
    exact congrArg (· ++ _) h.outputs

private theorem write (h : a.SameVoice b) (text : String) :
    (a.write text).SameVoice (b.write text) :=
  rel_write (R := SameVoice) (fun text same => same.push text) SameVoice.flush h text

private theorem foldl_write (h : a.SameVoice b) (texts : List String) :
    (texts.foldl Core.write a).SameVoice (texts.foldl Core.write b) :=
  List.foldl_rel h fun text _ _ _ same => same.write text

end SameVoice

/-! ### Dialogues -/

private theorem sameVoice_sendSignal (c : Core) (name data : String) :
    c.SameVoice (c.answer (.sendSignal name data)).1 := by
  simp only [answer, handleSignal?]
  split
  · next c' handled =>
    split at handled
    · cases handled
    · split at handled
      · cases handled
        exact ⟨rfl, rfl, rfl⟩
      · split at handled
        · cases handled
          exact ⟨rfl, rfl, rfl⟩
        · cases handled
  · exact ⟨rfl, (c.outputs_emit _).trans (List.append_nil _), rfl⟩

/-- When no load waits for a registration, one is only complained about. -/
theorem sameVoice_register {c : Core} (h : c.Closed) (about : Registration) :
    c.SameVoice (c.answer (.register about)).1 := by
  simp only [answer, register]
  split
  · exact ⟨rfl, c.outputs_complain _, rfl⟩
  · next slot vetted =>
    obtain ⟨loading, free, -⟩ := (c.vet_eq_ok_iff about slot).mp vetted
    have taken := h slot loading
    rw [free] at taken
    cases taken

/-- As far as output is concerned, a dialogue does nothing but write its texts. -/
theorem Talks.sameVoice {c c' : Core} {talk : List (HostCall × Reply)} (h : Talks c talk c')
    (closed : c.Closed) : ((written talk).foldl write c).SameVoice c' := by
  induction h with
  | silent c => exact .refl c
  | @ask c c' talk call talks ih =>
    have kept : c.Kept (c.answer call).1 :=
      ((Talks.ask call (.silent _)).kept_of_closed closed).1
    have later := ih (kept.closed closed)
    cases call with
    | write text => exact later
    | register about => exact ((sameVoice_register closed about).foldl_write _).trans later
    | sendSignal name data => exact ((sameVoice_sendSignal c name data).foldl_write _).trans later

/-- Two dialogues, one after the other, are one. -/
theorem Talks.append {a b c : Core} {talk talk' : List (HostCall × Reply)} (h : Talks a talk b)
    (h' : Talks b talk' c) : Talks a (talk ++ talk') c := by
  induction h with
  | silent => exact h'
  | ask call _ ih => exact .ask call (ih h')

/-- Without an evaluation the lines are handed over under the name of the active script. -/
theorem outputs_handOver {c : Core} (idle : c.output.evaluation = none)
    (lines : List (List Char)) (rest : List Char) :
    (c.handOver lines rest).outputs =
      c.outputs ++ ((lines.filter (· ≠ [])).map String.ofList).map fun line =>
        (Delivery.log c.activeName? line).event := by
  have delivered (line : List Char) : c.lineDelivery? line =
      if line = [] then none else some (.log c.activeName? (String.ofList line)) := by
    simp [lineDelivery?, Output.delivery?, idle]
  have events : ((lines.filterMap c.lineDelivery?).map Delivery.event) =
      ((lines.filter (· ≠ [])).map String.ofList).map fun line =>
        (Delivery.log c.activeName? line).event := by
    induction lines with
    | nil => rfl
    | cons line lines ih =>
      by_cases nothing : line = []
      · rw [List.filterMap_cons_none (by rw [delivered, if_pos nothing]), ih,
          List.filter_cons_of_neg (by simpa using nothing)]
      · rw [List.filterMap_cons_some (by rw [delivered, if_neg nothing]), List.map_cons, ih,
          List.filter_cons_of_pos (by simpa using nothing), List.map_cons, List.map_cons]
  have all : ∀ event ∈ ((lines.filter (· ≠ [])).map String.ofList).map fun line =>
      (Delivery.log c.activeName? line).event, event.isOutput = true := by
    intro event mem
    obtain ⟨line, -, rfl⟩ := List.mem_map.mp mem
    exact Delivery.isOutput_log _ line
  simp only [outputs, handOver, Array.toList_append, List.filter_append, events]
  rw [List.filter_eq_self.mpr all]

/-- Without an evaluation a dialogue and a flush behind it print the lines of what was buffered
and of the texts that were written, under the name of the active script. -/
theorem Talks.outputs_flush {c c' : Core} {talk : List (HostCall × Reply)} (h : Talks c talk c')
    (closed : c.Closed) (idle : c.output.evaluation = none)
    (clean : '\n' ∉ c.output.buffer.toList) :
    c'.flush.outputs = c.outputs ++ logged c.activeName? (c.output.buffer :: written talk) := by
  rw [(h.sameVoice closed).flush.outputs,
    flush_foldl_write (Output.isCapturing_of_none idle) clean, outputs_handOver idle,
    Text.pieces_eq_splitOnP]
  rfl

end Core

end LuaHost
