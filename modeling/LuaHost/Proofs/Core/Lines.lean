import LuaHost.Core
import LuaHost.Proofs.Text

/-!
# Lines of output

A core that delivers its output hands every line over as soon as it is finished, whatever the texts
in which the line was written. A core that keeps its output keeps everything but the line ends.
-/

namespace LuaHost

open Text (pieces)

/-- The text that is handed over. -/
def Delivery.text : Delivery → String
  | .input _ text _ => text
  | .print _ text => text
  | .log _ text => text

/-- Without an evaluation no output is kept. -/
theorem Output.isCapturing_of_none {o : Output} (h : o.evaluation = none) :
    o.isCapturing = false := by
  rw [isCapturing, h]

private theorem Output.delivery?_eq_none_iff {o : Output} (h : o.isCapturing = false)
    (script : Option String) : o.delivery? script = none ↔ o.buffer = "" := by
  unfold isCapturing at h
  unfold delivery?
  by_cases nothing : o.buffer = ""
  · simp [nothing]
  · cases he : o.evaluation with
    | none => simp [nothing]
    | some e =>
      obtain ⟨b, hb⟩ : ∃ b, e.buffer = some b := by
        rw [he] at h
        exact Option.isSome_iff_exists.mp (by simpa using h)
      simp [nothing, hb]

private theorem Output.delivery?_of_isCapturing {o : Output} (h : o.isCapturing = true)
    (script : Option String) : o.delivery? script = none := by
  unfold isCapturing at h
  unfold delivery?
  split
  · rfl
  · cases he : o.evaluation with
    | none => simp [he] at h
    | some e =>
      rw [he] at h
      simp [Option.isNone_iff_eq_none.mp h]

private theorem Output.text_of_delivery? {o : Output} {script : Option String} {d : Delivery}
    (h : o.delivery? script = some d) : d.text = o.buffer := by
  unfold delivery? at h
  split at h
  · cases h
  · split at h
    · cases h
      rfl
    · obtain ⟨b, -, rfl⟩ := Option.map_eq_some_iff.mp h
      split <;> rfl

namespace Core

/-- A relation between cores that is kept when the same text is pushed on both sides and when both
are flushed is kept by writing. -/
theorem rel_write {R : Core → Core → Prop}
    (push : ∀ {c d : Core} (text : String), R c d → R (c.push text) (d.push text))
    (flush : ∀ {c d : Core}, R c d → R c.flush d.flush) {c d : Core} (h : R c d) (text : String) :
    R (c.write text) (d.write text) := by
  have lines (ls : List (List Char)) :
      R (ls.foldl (fun c line => (c.push (String.ofList line)).flush) c)
        (ls.foldl (fun c line => (c.push (String.ofList line)).flush) d) :=
    List.foldl_rel h fun _ _ _ _ same => flush (push _ same)
  exact push _ (lines _)

/-- How a line is handed over as things are; an empty line is not, and none while output is
kept. -/
def lineDelivery? (c : Core) (line : List Char) : Option Delivery :=
  { c.output with buffer := String.ofList line }.delivery? c.activeName?

/-- The core that has handed lines over and is left with the beginning of another one. -/
def handOver (c : Core) (lines : List (List Char)) (rest : List Char) : Core :=
  { c with
    output := { c.output with buffer := String.ofList rest }
    events := c.events ++ ((lines.filterMap c.lineDelivery?).map Delivery.event).toArray }

/-- What is left in the buffer is the last line, which is not finished. -/
@[simp] theorem buffer_handOver (c : Core) (lines : List (List Char)) (rest : List Char) :
    (c.handOver lines rest).output.buffer.toList = rest := String.toList_ofList

private theorem handOver_handOver (c : Core) (lines lines' : List (List Char))
    (rest rest' : List Char) :
    (c.handOver lines rest).handOver lines' rest' = c.handOver (lines ++ lines') rest' := by
  have same : (c.handOver lines rest).lineDelivery? = c.lineDelivery? := rfl
  unfold handOver at same ⊢
  simp only [same, List.filterMap_append, List.map_append, ← List.append_toArray,
    Array.append_assoc]

private theorem handOver_nil (c : Core) : c.handOver [] c.output.buffer.toList = c := by
  simp [handOver]

private theorem push_eq_handOver (c : Core) (text : String) :
    c.push text = c.handOver [] (c.output.buffer.toList ++ text.toList) := by
  simp [handOver, push, Output.push]

private theorem lineDelivery?_eq_none_iff {c : Core} (h : c.output.isCapturing = false)
    (line : List Char) : c.lineDelivery? line = none ↔ line = [] := by
  have nothing := Output.delivery?_eq_none_iff
    (o := { c.output with buffer := String.ofList line }) h c.activeName?
  exact nothing.trans (by simp)

/-- A line is delivered as its text. -/
theorem text_of_lineDelivery? {c : Core} {line : List Char} {d : Delivery}
    (h : c.lineDelivery? line = some d) : d.text = String.ofList line :=
  Output.text_of_delivery? h

/-- Output that is delivered is delivered line by line, but for empty lines. -/
theorem map_text_filterMap {c : Core} (h : c.output.isCapturing = false)
    (lines : List (List Char)) :
    (lines.filterMap c.lineDelivery?).map Delivery.text =
      (lines.filter (· ≠ [])).map String.ofList := by
  induction lines with
  | nil => rfl
  | cons line lines ih =>
    cases hd : c.lineDelivery? line with
    | none =>
      obtain rfl := (lineDelivery?_eq_none_iff h line).mp hd
      rw [List.filterMap_cons_none hd, ih]
      rfl
    | some d =>
      have something : line ≠ [] := by
        rintro rfl
        cases hd
      rw [List.filterMap_cons_some hd, List.map_cons, ih, text_of_lineDelivery? hd,
        List.filter_cons_of_pos (by simpa using something), List.map_cons]

/-- A flush with nothing to deliver changes nothing. -/
theorem flush_of_none {c : Core} (h : c.output.delivery? c.activeName? = none) : c.flush = c := by
  simp only [flush, Output.takeDelivery, h]

/-- A flush empties the buffer and delivers what was in it. -/
theorem flush_of_some {c : Core} {d : Delivery} (h : c.output.delivery? c.activeName? = some d) :
    c.flush = { c with output := { c.output with buffer := "" } }.emit d.event := by
  simp only [flush, Output.takeDelivery, h]

/-! ### Output that is delivered -/

/-- A flush hands the buffered text over. -/
theorem flush_eq_handOver {c : Core} (h : c.output.isCapturing = false) :
    c.flush = c.handOver [c.output.buffer.toList] [] := by
  have buffered : c.lineDelivery? c.output.buffer.toList = c.output.delivery? c.activeName? := by
    rw [lineDelivery?, String.ofList_toList]
  unfold handOver
  rw [List.filterMap_cons, List.filterMap_nil, buffered]
  cases hd : c.output.delivery? c.activeName? with
  | none =>
    have nothing := (Output.delivery?_eq_none_iff h _).mp hd
    rw [flush_of_none hd]
    simp [← nothing]
  | some d =>
    rw [flush_of_some hd]
    simp [emit]

private theorem flush_push {c : Core} (h : c.output.isCapturing = false) (line : List Char) :
    (c.push (String.ofList line)).flush = c.handOver [c.output.buffer.toList ++ line] [] := by
  rw [push_eq_handOver, flush_eq_handOver (c := c.handOver [] _) h, handOver_handOver]
  simp

/-- Finishing lines one after the other, with nothing buffered before the first of them. -/
theorem foldl_flush_push {c : Core} (h : c.output.isCapturing = false)
    (nothing : c.output.buffer = "") (lines : List (List Char)) (rest : List Char) :
    (lines.foldl (fun c line => (c.push (String.ofList line)).flush) c).push (String.ofList rest) =
      c.handOver lines rest := by
  induction lines generalizing c with
  | nil => simp [push_eq_handOver, nothing]
  | cons line lines ih =>
    rw [List.foldl_cons, flush_push h, ih (c := c.handOver _ []) h rfl, handOver_handOver, nothing]
    rfl

/-- Writing hands over the lines that it finishes. -/
theorem write_eq_handOver {c : Core} (h : c.output.isCapturing = false)
    (clean : '\n' ∉ c.output.buffer.toList) {text : String} {lines : List (List Char)}
    {rest : List Char}
    (cut : pieces (· == '\n') (c.output.buffer.toList ++ text.toList) = lines ++ [rest]) :
    c.write text = c.handOver lines rest := by
  have unbroken : ∀ x ∈ c.output.buffer.toList, (x == '\n') = false := by
    intro x hx
    exact beq_false_of_ne fun hn => clean (hn ▸ hx)
  obtain ⟨p, ps, hp⟩ := Text.exists_pieces (· == '\n') text.toList
  rw [Text.pieces_append_of_no_stop unbroken hp] at cut
  cases lines with
  | nil =>
    -- No line ends in the text.
    obtain ⟨rfl, rfl⟩ := List.cons.inj cut
    have whole : Text.splitLines text.toList = ([], p) := Text.splitLines_of_pieces hp
    simp only [write, whole, List.foldl_nil]
    rw [push_eq_handOver, String.toList_ofList]
  | cons line lines =>
    obtain ⟨rfl, rfl⟩ := List.cons.inj cut
    have whole : Text.splitLines text.toList = (p :: lines, rest) :=
      Text.splitLines_of_pieces hp
    simp only [write, whole, List.foldl_cons]
    rw [flush_push h, foldl_flush_push (c := c.handOver _ []) h rfl, handOver_handOver]
    rfl

/-- What is left in the buffer after a finished line is no more than a line. -/
theorem clean_handOver (c : Core) {text : List Char} {lines : List (List Char)} {rest : List Char}
    (cut : pieces (· == '\n') text = lines ++ [rest]) :
    '\n' ∉ (c.handOver lines rest).output.buffer.toList := by
  rw [buffer_handOver]
  intro broken
  have last : rest ∈ pieces (· == '\n') text := cut ▸ List.mem_append_right lines List.mem_cons_self
  have := Text.not_stop_of_mem_pieces last _ broken
  simp at this

/-- Writing texts one after the other hands over the lines of all of them together. -/
theorem foldl_write_eq_handOver {c : Core} (h : c.output.isCapturing = false)
    (clean : '\n' ∉ c.output.buffer.toList) (texts : List String) :
    ∃ lines rest,
      pieces (· == '\n') (c.output.buffer.toList ++ texts.flatMap String.toList) =
        lines ++ [rest] ∧
      texts.foldl write c = c.handOver lines rest := by
  induction texts generalizing c with
  | nil =>
    refine ⟨[], c.output.buffer.toList, ?_, c.handOver_nil.symm⟩
    rw [List.flatMap_nil, List.append_nil, Text.pieces_of_not_mem clean]
    rfl
  | cons text texts ih =>
    obtain ⟨first, left, hf⟩ := Text.exists_last (· == '\n')
      (c.output.buffer.toList ++ text.toList)
    obtain ⟨lines, rest, hl, hw⟩ := ih (c := c.handOver first left) h (c.clean_handOver hf)
    rw [buffer_handOver] at hl
    refine ⟨first ++ lines, rest, ?_, ?_⟩
    · rw [List.flatMap_cons, ← List.append_assoc, Text.pieces_append hf, hl, List.append_assoc]
    · rw [List.foldl_cons, write_eq_handOver h clean hf, hw, handOver_handOver]

/-- A flush behind the last text hands over its last line, too. -/
theorem flush_foldl_write {c : Core} (h : c.output.isCapturing = false)
    (clean : '\n' ∉ c.output.buffer.toList) (texts : List String) :
    (texts.foldl write c).flush =
      c.handOver (pieces (· == '\n') (c.output.buffer.toList ++ texts.flatMap String.toList))
        [] := by
  obtain ⟨lines, rest, hl, hw⟩ := foldl_write_eq_handOver h clean texts
  rw [hw, flush_eq_handOver (c := c.handOver lines rest) h, handOver_handOver, buffer_handOver, hl]

/-! ### Output that is kept -/

/-- While output is kept a flush does nothing. -/
theorem flush_of_isCapturing {c : Core} (h : c.output.isCapturing = true) : c.flush = c :=
  flush_of_none (Output.delivery?_of_isCapturing h _)

/-- Two texts that are buffered one after the other are buffered as one. -/
theorem push_push (c : Core) (s t : String) : (c.push s).push t = c.push (s ++ t) := by
  simp [push, Output.push, String.append_assoc]

/-- Writing keeps everything but the line ends. -/
theorem write_of_isCapturing {c : Core} (h : c.output.isCapturing = true) (text : String) :
    c.write text = c.push (String.ofList (text.toList.filter (· != '\n'))) := by
  have all (lines : List (List Char)) (rest : List Char) {c : Core}
      (h : c.output.isCapturing = true) :
      (lines.foldl (fun c line => (c.push (String.ofList line)).flush) c).push
        (String.ofList rest) = c.push (String.ofList (lines ++ [rest]).flatten) := by
    induction lines generalizing c with
    | nil => simp
    | cons line lines ih =>
      rw [List.foldl_cons, flush_of_isCapturing (c := c.push _) h, ih (c := c.push _) h, push_push]
      simp
  obtain ⟨lines, rest, cut⟩ := Text.exists_last (· == '\n') text.toList
  simp only [write, Text.splitLines_of_pieces cut]
  rw [all lines rest h, ← cut, Text.flatten_pieces]
  rfl

/-- What is kept of texts is all their characters but the line ends. -/
theorem foldl_write_of_isCapturing {c : Core} (h : c.output.isCapturing = true)
    (texts : List String) :
    texts.foldl write c =
      c.push (String.ofList ((texts.flatMap String.toList).filter (· != '\n'))) := by
  induction texts generalizing c with
  | nil => simp [push, Output.push]
  | cons text texts ih =>
    rw [List.foldl_cons, write_of_isCapturing h, ih (c := c.push _) h, push_push]
    simp

/-! ### Unfinished lines -/

/-- A flush leaves no finished line behind. -/
theorem clean_flush {c : Core} (clean : '\n' ∉ c.output.buffer.toList) :
    '\n' ∉ c.flush.output.buffer.toList := by
  by_cases h : c.output.isCapturing = true
  · rwa [flush_of_isCapturing h]
  · rw [flush_eq_handOver (Bool.eq_false_iff.mpr h), buffer_handOver]
    exact List.not_mem_nil

/-- No finished line is in the buffer after a write. -/
theorem clean_write {c : Core} (clean : '\n' ∉ c.output.buffer.toList) (text : String) :
    '\n' ∉ (c.write text).output.buffer.toList := by
  by_cases h : c.output.isCapturing = true
  · rw [write_of_isCapturing h, push_eq_handOver, buffer_handOver, String.toList_ofList]
    intro broken
    rcases List.mem_append.mp broken with before | after
    · exact clean before
    · simp at after
  · obtain ⟨lines, rest, cut⟩ := Text.exists_last (· == '\n')
      (c.output.buffer.toList ++ text.toList)
    rw [write_eq_handOver (Bool.eq_false_iff.mpr h) clean cut]
    exact c.clean_handOver cut

/-- No line end is left in the buffer, whatever is written. -/
theorem clean_foldl_write {c : Core} (clean : '\n' ∉ c.output.buffer.toList)
    (texts : List String) : '\n' ∉ (texts.foldl write c).output.buffer.toList := by
  induction texts generalizing c with
  | nil => exact clean
  | cons text texts ih => exact ih (clean_write clean text)

end Core

end LuaHost
