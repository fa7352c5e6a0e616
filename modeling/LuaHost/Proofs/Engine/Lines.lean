import LuaHost.Proofs.Core.Lines
import LuaHost.Proofs.Engine.Delivery
import LuaHost.Proofs.Engine.Proceeding

/-!
# Lines are delivered

At no time does the buffer of an engine hold a finished line. So what scripts print is delivered
line by line, however they cut it when they write it.
-/

namespace LuaHost

/-- No step leaves a finished line in the buffer. -/
theorem Core.Step.clean {c c' : Core} (s : c.Step c') (clean : '\n' ∉ c.output.buffer.toList) :
    '\n' ∉ c'.output.buffer.toList := by
  cases s with
  | aside output => rwa [output]
  | write text => exact clean_write clean text
  | flush => exact clean_flush clean
  | request | evaluation => exact clean
  | takeBuffer => exact List.not_mem_nil

/-- An engine at work leaves no line end in the buffer. -/
theorem Core.Proceeds.clean {c c' : Core} (h : c.Proceeds c')
    (clean : '\n' ∉ c.output.buffer.toList) : '\n' ∉ c'.output.buffer.toList :=
  h.keeps Step.clean clean

namespace Engine

private theorem clean_move {e e' : Engine} (m : e.Move e') (clean : '\n' ∉ e.pending.toList) :
    '\n' ∉ e'.pending.toList := by
  cases m with
  | deed d => exact d.proceeds.core.clean clean
  | takeRequests | note | takeTimers | discard => exact clean

/-- No move leaves a line end in the buffer. -/
theorem clean_moves {e e' : Engine} (ms : e.Moves e') (clean : '\n' ∉ e.pending.toList) :
    '\n' ∉ e'.pending.toList := by
  induction ms with
  | refl => exact clean
  | tail _ m ih => exact clean_move m ih

/-- Between operations no line end is in the buffer. -/
theorem Reachable.clean {e : Engine} (h : e.Reachable) : '\n' ∉ e.pending.toList := by
  obtain ⟨options, license, files, environment, budget, he⟩ := h
  induction he with
  | refl => exact List.not_mem_nil
  | @perform e _ op ih =>
    obtain ⟨script, kind, function, arguments, rfl⟩ | ⟨-, moves⟩ := e.perform_cases op
    · exact (e.proceeds_invoke script kind function arguments).core.clean ih
    · exact clean_moves moves ih
  | outside _ _ _ _ ih => exact ih

/-- The buffer holds no finished line, not even in the middle of an operation. With that, texts
that are written one after the other and flushed are delivered as the non-empty lines of all of
them together with what was buffered before, each once and as things were at the beginning. While
output is kept nothing is delivered, and only the line ends are lost. -/
theorem lines_delivered :
    (∀ (e e' : Engine) (c : Core), e.Reachable → e.Moves e' → e'.core.Proceeds c →
      '\n' ∉ c.output.buffer.toList) ∧
    (∀ (c : Core) (texts : List String), '\n' ∉ c.output.buffer.toList →
      '\n' ∉ (texts.foldl Core.write c).output.buffer.toList ∧
      '\n' ∉ (texts.foldl Core.write c).flush.output.buffer.toList) ∧
    (∀ (c : Core) (texts : List String), '\n' ∉ c.output.buffer.toList →
      c.output.isCapturing = false →
      ∃ deliveries : List Delivery,
        (texts.foldl Core.write c).flush =
          { c with
            output := { c.output with buffer := "" }
            events := c.events ++ (deliveries.map Delivery.event).toArray } ∧
        deliveries.map Delivery.text =
          (((c.output.buffer.toList ++ texts.flatMap String.toList).splitOn '\n').filter
            (· ≠ [])).map String.ofList ∧
        ∀ d ∈ deliveries, c.lineDelivery? d.text.toList = some d) ∧
    (∀ (c : Core) (texts : List String), c.output.isCapturing = true →
      (texts.foldl Core.write c).flush =
        { c with output := { c.output with
            buffer := c.output.buffer ++
              String.ofList ((texts.flatMap String.toList).filter (· != '\n')) } }) := by
  refine ⟨?_, ?_, ?_, ?_⟩
  · intro e e' c h moves steps
    exact steps.clean (clean_moves moves h.clean)
  · intro c texts clean
    have written := Core.clean_foldl_write clean texts
    exact ⟨written, Core.clean_flush written⟩
  · intro c texts clean delivering
    refine ⟨_, Core.flush_foldl_write delivering clean texts, ?_, ?_⟩
    · rw [Core.map_text_filterMap delivering, Text.pieces_eq_splitOnP]
      rfl
    · intro d hd
      obtain ⟨line, -, hl⟩ := List.mem_filterMap.mp hd
      rwa [Core.text_of_lineDelivery? hl, String.toList_ofList]
  · intro c texts capturing
    rw [Core.foldl_write_of_isCapturing capturing,
      Core.flush_of_isCapturing (c := c.push _) capturing]
    rfl

/-- The case of lines that are cut into texts at will. -/
theorem lines_delivered_bare :
    let c := bare.core.write "first\nsec"
    let kept := (bare.openEvaluation ⟨none, false, false⟩).core
    let texts := ["ond\n", "\nthird", ""]
    bare.core.Proceeds c ∧ '\n' ∉ c.output.buffer.toList ∧
      (∃ deliveries : List Delivery,
        (texts.foldl Core.write c).flush.events =
          c.events ++ (deliveries.map Delivery.event).toArray ∧
        deliveries.map Delivery.text = ["second", "third"]) ∧
      kept.output.isCapturing = true ∧
        (texts.foldl Core.write kept).flush.output.buffer = "ondthird" := by
  have steps : bare.core.Proceeds (bare.core.write "first\nsec") := .step (.write _ _)
  have clean := lines_delivered.1 bare bare _ reachable_bare (.refl bare) steps
  obtain ⟨deliveries, after, texts, -⟩ :=
    lines_delivered.2.2.1 _ ["ond\n", "\nthird", ""] clean rfl
  have kept := lines_delivered.2.2.2 (bare.openEvaluation ⟨none, false, false⟩).core
    ["ond\n", "\nthird", ""] rfl
  refine ⟨steps, clean, ⟨deliveries, congrArg Core.events after, ?_⟩, rfl, ?_⟩
  · rw [texts]
    rfl
  · rw [kept]
    rfl

end Engine

end LuaHost
