import LuaHost.Text.Blank
import Mathlib.Data.List.DropRight

/-!
# Trimmed texts

Trimming takes away blanks at the ends of a text and nothing else. A text that neither starts nor
ends with a blank is left as it is.
-/

namespace LuaHost.Text

/-- A text that neither starts nor ends with a blank. -/
structure Trimmed (s : List Char) : Prop where
  head : ∀ c, s.head? = some c → isBlank c = false
  last : ∀ c, s.getLast? = some c → isBlank c = false

variable {s : List Char} {c : Char}

/-- Trimming the end leaves the beginning of the text. -/
theorem trimEnd_prefix (s : List Char) : trimEnd s <+: s := List.rdropWhile_prefix isBlank s

/-- Only a text of blanks is trimmed away. -/
theorem trimEnd_eq_nil_iff : trimEnd s = [] ↔ ∀ c ∈ s, isBlank c = true :=
  List.rdropWhile_eq_nil_iff

/-- What stands in front of blanks at the end stays. -/
theorem trimEnd_cons (hc : isBlank c = false) (s : List Char) :
    trimEnd (c :: s) = c :: trimEnd s := by
  have stays : ¬isBlank c = true := by rw [hc]; exact Bool.false_ne_true
  simp only [trimEnd, List.reverse_cons, List.dropWhile_append, List.dropWhile_cons, stays]
  split
  · next gone => rw [List.isEmpty_iff.mp gone]; rfl
  · simp

/-- A text that is not trimmed away at its end starts as before. -/
theorem head?_trimEnd (h : trimEnd s ≠ []) : (trimEnd s).head? = s.head? := by
  obtain ⟨blanks, hs⟩ := trimEnd_prefix s
  have starts : (trimEnd s ++ blanks).head? = (trimEnd s).head? :=
    List.head?_append_of_ne_nil _ h
  rw [← starts, hs]

/-- A text that does not begin with a blank is not trimmed at its start. -/
theorem trimStart_of_head (h : ∀ c, s.head? = some c → isBlank c = false) : trimStart s = s := by
  cases s with
  | nil => rfl
  | cons c s =>
    have stays : ¬isBlank c = true := by rw [h c rfl]; exact Bool.false_ne_true
    exact List.dropWhile_cons_of_neg stays

private theorem getLast?_trimEnd (h : (trimEnd s).getLast? = some c) : isBlank c = false := by
  rw [trimEnd, List.getLast?_reverse] at h
  have stop := List.head?_dropWhile_not isBlank s.reverse
  rw [h] at stop
  simpa using stop

namespace Trimmed

/-- A trimmed text ends where it ended. -/
theorem trimEnd_eq (h : Trimmed s) : trimEnd s = s := by
  refine List.rdropWhile_eq_self_iff.mpr fun nonempty => ?_
  rw [h.last _ (List.getLast?_eq_some_getLast nonempty)]
  exact Bool.false_ne_true

/-- Trimming leaves a trimmed text as it is. -/
theorem trim_eq (h : Trimmed s) : trim s = s := by
  rw [trim, trimStart_of_head h.head, h.trimEnd_eq]

/-- What comes off the end of a text that starts without a blank is trimmed. -/
theorem trimEnd_of_cons (hc : isBlank c = false) (s : List Char) : Trimmed (trimEnd (c :: s)) where
  head d hd := by
    rw [trimEnd_cons hc, List.head?_cons] at hd
    exact Option.some.inj hd ▸ hc
  last _ := getLast?_trimEnd

end Trimmed

end LuaHost.Text
