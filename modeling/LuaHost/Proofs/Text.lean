import LuaHost.Text.Pieces

/-!
# The pieces of a text

How the pieces of a text come from those of its parts, and what stands before and behind its first
separator.
-/

namespace LuaHost.Text

/-- There is a first piece. -/
theorem exists_pieces (stop : Char → Bool) (s : List Char) : ∃ p ps, pieces stop s = p :: ps :=
  List.exists_cons_of_ne_nil (pieces_ne_nil stop s)

/-- There is a last piece. -/
theorem exists_last (stop : Char → Bool) (s : List Char) :
    ∃ whole last, pieces stop s = whole ++ [last] :=
  ⟨_, _, (List.dropLast_concat_getLast (pieces_ne_nil stop s)).symm⟩

/-- A separator in front makes an empty piece. -/
theorem pieces_cons_stop {stop : Char → Bool} {c : Char} (hc : stop c = true) (s : List Char) :
    pieces stop (c :: s) = [] :: pieces stop s := by
  rw [pieces, if_pos hc]

/-- Any other character in front belongs to the first piece. -/
theorem pieces_cons {stop : Char → Bool} {c : Char} {s p : List Char} {ps : List (List Char)}
    (hc : stop c = false) (h : pieces stop s = p :: ps) :
    pieces stop (c :: s) = (c :: p) :: ps := by
  rw [pieces, hc, if_neg Bool.false_ne_true, h]

/-- Cutting a text is splitting the list of its characters. -/
theorem pieces_eq_splitOnP (stop : Char → Bool) (s : List Char) :
    pieces stop s = s.splitOnP stop := by
  induction s with
  | nil => rfl
  | cons c cs ih =>
    rw [List.splitOnP_cons_eq_if_modifyHead, ← ih]
    by_cases hc : stop c = true
    · rw [pieces_cons_stop hc, if_pos hc]
    · obtain ⟨p, ps, hp⟩ := exists_pieces stop cs
      rw [pieces_cons (Bool.eq_false_iff.mpr hc) hp, if_neg hc, hp, List.modifyHead_cons]

/-- A text that holds no separator is one piece. -/
theorem pieces_of_no_stop {stop : Char → Bool} {s : List Char}
    (h : ∀ c ∈ s, stop c = false) : pieces stop s = [s] := by
  rw [pieces_eq_splitOnP, List.splitOnP_eq_singleton h]

/-- A text without the separator is one piece. -/
theorem pieces_of_not_mem {sep : Char} {s : List Char} (h : sep ∉ s) :
    pieces (· == sep) s = [s] :=
  pieces_of_no_stop fun _ hc => beq_false_of_ne fun same => h (same ▸ hc)

/-- Cutting at a separator cuts both sides. -/
theorem pieces_append_stop {stop : Char → Bool} (a : List Char) {c : Char} (b : List Char)
    (hc : stop c = true) : pieces stop (a ++ c :: b) = pieces stop a ++ pieces stop b := by
  simp only [pieces_eq_splitOnP]
  exact List.splitOnP_append_cons a b hc

/-- Text without separators lengthens the first piece. -/
theorem pieces_append_of_no_stop {stop : Char → Bool} {a b p : List Char} {ps : List (List Char)}
    (h : ∀ c ∈ a, stop c = false) (hb : pieces stop b = p :: ps) :
    pieces stop (a ++ b) = (a ++ p) :: ps := by
  induction a with
  | nil => exact hb
  | cons c cs ih =>
    have hc := h c List.mem_cons_self
    exact pieces_cons hc (ih fun d hd => h d (List.mem_cons_of_mem c hd))

/-- A text that goes on is cut where it was cut, but for its last piece, which goes on too. -/
theorem pieces_append {stop : Char → Bool} {a last : List Char} {whole : List (List Char)}
    (h : pieces stop a = whole ++ [last]) (b : List Char) :
    pieces stop (a ++ b) = whole ++ pieces stop (last ++ b) := by
  induction a generalizing whole last with
  | nil =>
    obtain ⟨rfl, hl⟩ : [] = whole ∧ [[]] = [last] := List.append_inj' h rfl
    obtain rfl := List.singleton_inj.mp hl
    rfl
  | cons c cs ih =>
    by_cases hc : stop c = true
    · rw [pieces_cons_stop hc] at h
      cases whole with
      | nil => exact absurd (List.cons.inj h).2 (pieces_ne_nil stop cs)
      | cons w ws =>
        obtain ⟨rfl, hcs⟩ := List.cons.inj h
        rw [List.cons_append, pieces_cons_stop hc, ih hcs]
        rfl
    · rw [Bool.not_eq_true] at hc
      obtain ⟨p, ps, hp⟩ := exists_pieces stop cs
      rw [pieces_cons hc hp] at h
      cases whole with
      | nil =>
        -- No separator so far: the text goes on behind its first character.
        obtain ⟨rfl, rfl⟩ := List.cons.inj h
        obtain ⟨q, qs, hq⟩ := exists_pieces stop (p ++ b)
        have rest : pieces stop cs = [] ++ [p] := hp
        have front : pieces stop (cs ++ b) = q :: qs := (ih rest).trans hq
        rw [List.cons_append, pieces_cons hc front]
        exact (pieces_cons hc hq).symm
      | cons w ws =>
        obtain ⟨rfl, rfl⟩ := List.cons.inj h
        have rest : pieces stop cs = (p :: ws) ++ [last] := hp
        exact pieces_cons hc (ih rest)

/-- The pieces hold all characters but the separators. -/
theorem flatten_pieces (stop : Char → Bool) (s : List Char) :
    (pieces stop s).flatten = s.filter (!stop ·) := by
  induction s with
  | nil => rfl
  | cons c cs ih =>
    by_cases hc : stop c = true
    · simp [pieces_cons_stop hc, hc, ih]
    · rw [Bool.not_eq_true] at hc
      obtain ⟨p, ps, hp⟩ := exists_pieces stop cs
      rw [hp] at ih
      simp [pieces_cons hc hp, hc, ← ih]

/-- The finished lines of a text and what follows them. -/
theorem splitLines_of_pieces {s rest : List Char} {lines : List (List Char)}
    (h : pieces (· == '\n') s = lines ++ [rest]) : splitLines s = (lines, rest) := by
  simp [splitLines, h]

/-- Finished lines and what follows them come apart again. -/
theorem splitLines_finished {whole : List (List Char)} {rest : List Char}
    (closed : ∀ line ∈ whole, '\n' ∉ line) (open_ : '\n' ∉ rest) :
    splitLines (whole.flatMap (· ++ ['\n']) ++ rest) = (whole, rest) := by
  apply splitLines_of_pieces
  induction whole with
  | nil => exact pieces_of_not_mem open_
  | cons line whole ih =>
    obtain ⟨first, others⟩ := List.forall_mem_cons.mp closed
    rw [List.flatMap_cons, List.append_assoc, List.append_assoc, List.singleton_append,
      pieces_append_stop line _ rfl, pieces_of_not_mem first, ih others]
    rfl

/-- Neither a finished line nor what follows the lines holds a line feed. -/
theorem not_mem_splitLines (s : List Char) :
    (∀ line ∈ (splitLines s).1, '\n' ∉ line) ∧ '\n' ∉ (splitLines s).2 := by
  obtain ⟨whole, rest, cut⟩ := exists_last (· == '\n') s
  have free : ∀ line ∈ whole ++ [rest], '\n' ∉ line := by
    intro line mem feed
    have stop := not_stop_of_mem_pieces (cut ▸ mem) '\n' feed
    exact absurd stop (by decide)
  rw [splitLines_of_pieces cut]
  exact ⟨fun line mem => free line (List.mem_append_left _ mem),
    free rest (List.mem_append_right _ List.mem_cons_self)⟩

/-- The lines are those that are finished, and the rest if it is not empty. -/
theorem lines_of_splitLines {s rest : List Char} {whole : List (List Char)}
    (h : splitLines s = (whole, rest)) :
    lines s = whole.map dropReturn ++ if rest.isEmpty then [] else [rest] := by
  rw [lines, h]

/-- A text without line feeds is one line, or none. -/
theorem lines_of_not_mem {s : List Char} (h : '\n' ∉ s) :
    lines s = if s.isEmpty then [] else [s] := by
  have cut : splitLines s = ([], s) := splitLines_of_pieces (pieces_of_not_mem h)
  rw [lines_of_splitLines cut]
  rfl

/-- The characters of a piece are those of the text. -/
theorem mem_of_mem_pieces {stop : Char → Bool} {s p : List Char} {c : Char}
    (hp : p ∈ pieces stop s) (hc : c ∈ p) : c ∈ s := by
  induction s generalizing p with
  | nil =>
    obtain rfl := List.mem_singleton.mp hp
    exact hc
  | cons x xs ih =>
    simp only [pieces] at hp
    split at hp
    · rcases List.mem_cons.mp hp with rfl | hp
      · cases hc
      · exact List.mem_cons_of_mem x (ih hp hc)
    · split at hp
      · next heq => exact absurd heq (pieces_ne_nil stop xs)
      · next q qs heq =>
        rcases List.mem_cons.mp hp with rfl | hp
        · rcases List.mem_cons.mp hc with rfl | hc
          · exact List.mem_cons_self
          · exact List.mem_cons_of_mem x (ih (heq ▸ List.mem_cons_self) hc)
        · exact List.mem_cons_of_mem x (ih (heq ▸ List.mem_cons_of_mem q hp) hc)

/-- A text is cut at the first stop. -/
theorem cut?_append {stop : Char → Bool} {a : List Char} (h : ∀ c ∈ a, stop c = false) {c : Char}
    (hc : stop c = true) (b : List Char) : cut? stop (a ++ c :: b) = some (a, b) := by
  induction a with
  | nil => exact if_pos hc
  | cons d a ih =>
    have hd : ¬stop d = true := Bool.eq_false_iff.mp (h d List.mem_cons_self)
    rw [List.cons_append, cut?, if_neg hd, ih fun e he => h e (List.mem_cons_of_mem d he)]
    rfl

/-- A text without a stop is not cut. -/
theorem cut?_of_no_stop {stop : Char → Bool} {a : List Char} (h : ∀ c ∈ a, stop c = false) :
    cut? stop a = none := by
  induction a with
  | nil => rfl
  | cons d a ih =>
    have hd : ¬stop d = true := Bool.eq_false_iff.mp (h d List.mem_cons_self)
    rw [cut?, if_neg hd, ih fun e he => h e (List.mem_cons_of_mem d he)]
    rfl

/-- What stands before the first separator. -/
theorem cut_fst (stop : Char → Bool) (s : List Char) :
    (cut stop s).1 = s.takeWhile (!stop ·) := by
  unfold cut
  induction s with
  | nil => rfl
  | cons c s ih =>
    by_cases hc : stop c = true
    · simp [cut?, hc]
    · rw [Bool.not_eq_true] at hc
      rw [List.takeWhile_cons_of_pos (by simp [hc]), ← ih]
      cases h : cut? stop s <;> simp [cut?, hc, h]

end LuaHost.Text
