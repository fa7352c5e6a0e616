/-!
# Looking keys up in lists of pairs

How `List.lookup` goes together with putting a pair in front, at the end or in the place of
another one, and with taking pairs out.
-/

namespace LuaHost

variable {α β : Type} [BEq α] [LawfulBEq α] [DecidableEq α]

/-- Looking a key up reads the first pair when the keys agree, else the rest. -/
theorem lookup_cons_eq_ite (k k' : α) (v : β) (rest : List (α × β)) :
    List.lookup k ((k', v) :: rest) = if k = k' then some v else rest.lookup k := by
  by_cases h : k = k'
  · simp [h]
  · have : (k == k') = false := by simpa using h
    simp [List.lookup_cons, h, this]

/-- A pair at the end is found when its key is not there before. -/
theorem lookup_concat (k k' : α) (v : β) (entries : List (α × β)) :
    (entries ++ [(k', v)]).lookup k = (entries.lookup k).or (if k = k' then some v else none) := by
  induction entries with
  | nil => simp [lookup_cons_eq_ite]
  | cons x xs ih =>
    rw [List.cons_append, lookup_cons_eq_ite, lookup_cons_eq_ite, ih]
    split <;> simp

/-- Replacing what stands under a key changes that key only, and only if it is there. -/
theorem lookup_map_replace (key k : α) (v : β) (entries : List (α × β)) :
    (entries.map fun x => if x.1 = key then (x.1, v) else x).lookup k =
      if k = key then (entries.lookup key).map fun _ => v else entries.lookup k := by
  induction entries with
  | nil => simp
  | cons x xs ih =>
    obtain ⟨k', v'⟩ := x
    by_cases hk : k' = key
    · subst hk
      by_cases h : k = k' <;> simp [lookup_cons_eq_ite, ih, h]
    · by_cases h : k = k'
      · subst h
        simp [hk]
      · by_cases hkey : k = key
        · subst hkey
          simp [lookup_cons_eq_ite, ih, h, hk]
        · simp [lookup_cons_eq_ite, ih, h, hk, hkey]

/-- Taking out what stands under a key changes that key only. -/
theorem lookup_filter_ne (key k : α) (entries : List (α × β)) :
    (entries.filter (·.1 ≠ key)).lookup k = if k = key then none else entries.lookup k := by
  induction entries with
  | nil => simp
  | cons x xs ih =>
    obtain ⟨k', v'⟩ := x
    rw [lookup_cons_eq_ite]
    by_cases hk : k' = key
    · rw [List.filter_cons_of_neg (by simpa using hk), ih]
      subst hk
      split <;> rfl
    · rw [List.filter_cons_of_pos (by simpa using hk), lookup_cons_eq_ite, ih]
      by_cases h : k = k'
      · rw [if_pos h, if_neg (h ▸ hk), if_pos h]
      · rw [if_neg h, if_neg h]

end LuaHost
