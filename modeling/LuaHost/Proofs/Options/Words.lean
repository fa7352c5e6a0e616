import LuaHost.Options.Words
import LuaHost.Proofs.Text
import Mathlib.Data.List.Forall2

/-!
# The reader of words

A text spells a word when the reader takes it for the beginning of that word, whatever follows. A
bare word of plain characters spells itself, and a word between quotes spells that word, so texts
that stand one blank apart are read as the words they spell. Where no quote stands the words of a
directive are what is left between its blanks.
-/

namespace LuaHost.Words

open LuaHost.Text (isWordBreak pieces)

/-! ## Spelling -/

/-- Wherever a word may begin, the text is read as the word; whatever follows may lengthen it. -/
def Spells (text word : List Char) : Prop :=
  ∀ rest, scan .between (text ++ rest) =
    ([], (word ++ (scan .bare rest).1) :: (scan .bare rest).2)

/-- Plain characters are read as they are. -/
theorem scan_bare_append {word : List Char} (quote : '"' ∉ word)
    (plain : ∀ c ∈ word, isWordBreak c = false) (rest : List Char) :
    scan .bare (word ++ rest) = (word ++ (scan .bare rest).1, (scan .bare rest).2) := by
  induction word with
  | nil => rfl
  | cons c word ih =>
    obtain ⟨other, quote⟩ := not_or.mp (List.mem_cons.not.mp quote)
    obtain ⟨letter, plain⟩ := List.forall_mem_cons.mp plain
    rw [List.cons_append, scan, if_neg (Ne.symm other), letter, if_neg Bool.false_ne_true,
      ih quote plain]
    rfl

/-- A plain word spells itself. -/
theorem spells_bare {word : List Char} (nonempty : word ≠ []) (quote : '"' ∉ word)
    (plain : ∀ c ∈ word, isWordBreak c = false) : Spells word word := by
  intro rest
  obtain ⟨c, word, rfl⟩ := List.exists_cons_of_ne_nil nonempty
  obtain ⟨other, quote⟩ := not_or.mp (List.mem_cons.not.mp quote)
  obtain ⟨letter, plain⟩ := List.forall_mem_cons.mp plain
  rw [List.cons_append, scan, letter, if_neg Bool.false_ne_true, if_neg (Ne.symm other),
    scan_bare_append quote plain]
  rfl

namespace Spells

variable {text word : List Char}

/-- What spells a word is read as that word. -/
theorem ofChars (h : Spells text word) : Words.ofChars text = [word] := by
  have read := h []
  rw [List.append_nil] at read
  rw [Words.ofChars, read]
  simp [scan]

/-- A blank ends the word. -/
theorem ofChars_append (h : Spells text word) (rest : List Char) :
    Words.ofChars (text ++ ' ' :: rest) = word :: Words.ofChars rest := by
  rw [Words.ofChars, h]
  simp [scan, Text.isWordBreak, Words.ofChars]

end Spells

/-- Texts that stand one blank apart are read as the words that they spell. -/
theorem ofChars_intercalate {texts words : List (List Char)} (h : List.Forall₂ Spells texts words) :
    ofChars ([' '].intercalate texts) = words := by
  induction h with
  | nil => rfl
  | @cons text word texts words first others ih =>
    cases texts with
    | nil =>
      cases others
      rw [List.intercalate_singleton, first.ofChars]
    | cons next texts =>
      rw [List.intercalate_cons_cons, List.append_assoc, List.singleton_append,
        first.ofChars_append, ih]

/-! ## Words between quotes -/

/-- The character as it is written between quotes. -/
def escape (c : Char) : List Char := if c = '"' ∨ c = '\\' then ['\\', c] else [c]

/-- A quoted word is escaped between its quotes. -/
theorem quote_eq (word : List Char) : quote word = '"' :: (word.flatMap escape ++ ['"']) := rfl

/-- Between quotes an escaped character is read as that character. -/
theorem scan_escape (c : Char) (rest : List Char) :
    scan .quoted (escape c ++ rest) = push c (scan .quoted rest) := by
  by_cases escaped : c = '"' ∨ c = '\\'
  · rw [escape, if_pos escaped]
    rfl
  · rw [escape, if_neg escaped, List.singleton_append, scan]
    obtain ⟨quote, slash⟩ := not_or.mp escaped
    rw [if_neg quote, if_neg slash]

/-- An escaped word is read to the quote that ends it. -/
theorem scan_escaped (word rest : List Char) :
    scan .quoted (word.flatMap escape ++ '"' :: rest) =
      (word ++ (scan .bare rest).1, (scan .bare rest).2) := by
  induction word with
  | nil => rfl
  | cons c word ih =>
    rw [List.flatMap_cons, List.append_assoc, scan_escape, ih]
    rfl

/-- Quoting adds quotes and backslashes only. -/
theorem mem_quote {word : List Char} {c : Char} (h : c ∈ quote word) :
    c = '"' ∨ c = '\\' ∨ c ∈ word := by
  simp only [quote_eq, List.mem_cons, List.mem_append, List.mem_flatMap, List.not_mem_nil,
    or_false] at h
  rcases h with quote | ⟨d, mem, written⟩ | quote
  · exact .inl quote
  · unfold escape at written
    split at written
    · rcases List.mem_cons.mp written with slash | same
      · exact .inr (.inl slash)
      · exact .inr (.inr (List.mem_singleton.mp same ▸ mem))
    · exact .inr (.inr (List.mem_singleton.mp written ▸ mem))
  · exact .inl quote

/-- A word between quotes spells the word. -/
theorem spells_quote (word : List Char) : Spells (quote word) word := by
  intro rest
  have body : quote word ++ rest = '"' :: (word.flatMap escape ++ '"' :: rest) := by
    simp [quote_eq]
  rw [body, scan, if_neg (by decide), if_pos rfl, scan_escaped]

/-- Quoted words with blanks between them are read as those words. -/
theorem ofChars_quoted (words : List (List Char)) :
    ofChars ([' '].intercalate (words.map quote)) = words := by
  apply ofChars_intercalate
  rw [List.forall₂_map_left_iff]
  exact List.forall₂_same.mpr fun word _ => spells_quote word

/-! ## Words without quotes -/

/-- The words of a text that starts inside a word, and of one that starts between words. -/
theorem scan_of_no_quote {s : List Char} (quote : '"' ∉ s) :
    (∀ p ps, pieces isWordBreak s = p :: ps → scan .bare s = (p, ps.filter (! ·.isEmpty))) ∧
      (scan .between s).2 = (pieces isWordBreak s).filter (! ·.isEmpty) := by
  induction s with
  | nil =>
    refine ⟨fun p ps h => ?_, rfl⟩
    obtain ⟨rfl, rfl⟩ := List.cons.inj h
    rfl
  | cons c cs ih =>
    obtain ⟨bare, between⟩ := ih fun mem => quote (List.mem_cons_of_mem c mem)
    have plain : c ≠ '"' := fun same => quote (same ▸ List.mem_cons_self)
    by_cases hc : isWordBreak c = true
    · rw [Text.pieces_cons_stop hc]
      refine ⟨fun p ps h => ?_, ?_⟩
      · obtain ⟨rfl, rfl⟩ := List.cons.inj h
        rw [scan, if_neg plain, if_pos hc, between]
      · rw [scan, if_pos hc, between]
        rfl
    · obtain ⟨q, qs, hq⟩ := Text.exists_pieces isWordBreak cs
      have first := bare q qs hq
      rw [Text.pieces_cons (Bool.not_eq_true _ ▸ hc) hq]
      refine ⟨fun p ps h => ?_, ?_⟩
      · obtain ⟨rfl, rfl⟩ := List.cons.inj h
        rw [scan, if_neg plain, if_neg hc, first]
        rfl
      · simp [scan, hc, plain, first, push]

variable {a b : List Char}

private theorem ofChars_of_no_quote (quote : '"' ∉ a) :
    ofChars a = (pieces isWordBreak a).filter (! ·.isEmpty) := (scan_of_no_quote quote).2

/-- A text without blanks is one word. -/
theorem ofChars_of_no_break (quote : '"' ∉ a) (nonempty : a ≠ [])
    (h : ∀ c ∈ a, isWordBreak c = false) : ofChars a = [a] :=
  (spells_bare nonempty quote h).ofChars

/-- Words come apart at a blank. -/
theorem ofChars_append_break (quote : '"' ∉ a) (quote' : '"' ∉ b) {c : Char}
    (hc : isWordBreak c = true) : ofChars (a ++ c :: b) = ofChars a ++ ofChars b := by
  have plain : c ≠ '"' := fun same => absurd (same ▸ hc) (by decide)
  have quotes : '"' ∉ a ++ c :: b := by
    rw [List.mem_append, List.mem_cons]
    rintro (mem | same | mem)
    · exact quote mem
    · exact plain same.symm
    · exact quote' mem
  rw [ofChars_of_no_quote quote, ofChars_of_no_quote quote', ofChars_of_no_quote quotes,
    Text.pieces_append_stop a b hc, List.filter_append]

/-- Only a text of blanks has no words. -/
theorem ofChars_eq_nil_iff (quote : '"' ∉ a) :
    ofChars a = [] ↔ ∀ c ∈ a, isWordBreak c = true := by
  have all := Text.flatten_pieces isWordBreak a
  rw [ofChars_of_no_quote quote]
  constructor
  · intro none_ c hc
    have nothing : (pieces isWordBreak a).flatten = [] := by
      rw [List.flatten_eq_nil_iff]
      intro p hp
      have := List.filter_eq_nil_iff.mp none_ p hp
      simpa using this
    rw [nothing] at all
    have := List.filter_eq_nil_iff.mp all.symm c hc
    simpa using this
  · intro blank
    have nothing : a.filter (!isWordBreak ·) = [] :=
      List.filter_eq_nil_iff.mpr fun c hc => by simp [blank c hc]
    rw [nothing, List.flatten_eq_nil_iff] at all
    exact List.filter_eq_nil_iff.mpr fun p hp => by simp [all p hp]

end LuaHost.Words
