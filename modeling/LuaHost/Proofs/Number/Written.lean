import LuaHost.Proofs.Number.Shortest

/-!
# Two texts of a float

A float is shown with fourteen significant digits, and it is written to a stream with the fewest
digits that read back. For integral values the two texts agree below `10 ^ 14`, where both are all
digits of the integer, and never between `10 ^ 14` and `10 ^ 15`, where only the one shown has an
exponent. From there on they agree just for the floats that fourteen digits are enough to tell.
-/

namespace LuaHost.Decimal

variable {x : Binary64} {k : Int}

/-! ### Integral values -/

/-- What the parts of a float of integral value come to. -/
theorem parts_of_toInt? (h : x.toInt? = some k) :
    x.isFinite = true ∧ x.ratio.1 = k.natAbs * x.ratio.2 ∧ x.size = k.natAbs := by
  obtain ⟨finite, value⟩ := Binary64.toInt?_eq_some_iff.mp h
  have pos : (x.ratio.2 : ℚ) ≠ 0 := by exact_mod_cast x.ratio_pos.ne'
  have size : x.size = k.natAbs := by
    have nonneg : 0 ≤ x.size := by
      rw [Binary64.size_eq_ratio]
      positivity
    rw [Binary64.value_eq_ratio, ← Binary64.size_eq_ratio] at value
    rw [← abs_of_nonneg nonneg, Nat.cast_natAbs, Int.cast_abs, ← value, abs_mul]
    split <;> simp
  refine ⟨finite, ?_, size⟩
  rw [Binary64.size_eq_ratio, div_eq_iff pos] at size
  exact_mod_cast size

private theorem not_special (finite : x.isFinite = true) :
    x.isNaN = false ∧ x.isInfinite = false := by
  have exponent : x.biasedExponent ≠ 2047 := by simpa [Binary64.isFinite] using finite
  simp [Binary64.isNaN, Binary64.isInfinite, exponent]

private theorem magnitude_eq_zero_iff (h : x.toInt? = some k) : x.magnitude = 0 ↔ k.natAbs = 0 := by
  obtain ⟨-, -, size⟩ := parts_of_toInt? h
  have pos := Binary64.unit_pos x.binade
  rw [Binary64.size_eq] at size
  have mantissa : x.mantissa = 0 ↔ k.natAbs = 0 := by
    rw [← Nat.cast_eq_zero (R := ℚ), ← Nat.cast_eq_zero (R := ℚ) (n := k.natAbs), ← size,
      mul_eq_zero_iff_right pos.ne']
  rw [← mantissa, Binary64.magnitude_eq]
  constructor
  · intro zero
    omega
  · intro zero
    have subnormal : x.biasedExponent = 0 := by
      by_contra normal
      have := Binary64.le_mantissa normal
      omega
    rw [zero, Binary64.binade, subnormal, Nat.zero_sub, Nat.zero_mul]

private theorem normal_of_toInt? (h : x.toInt? = some k) (pos : 0 < k.natAbs) :
    x.biasedExponent ≠ 0 := by
  intro subnormal
  obtain ⟨-, -, size⟩ := parts_of_toInt? h
  have smallest : x.binade = 0 := by rw [Binary64.binade, subnormal]
  have one : (1 : ℚ) ≤ k.natAbs := by exact_mod_cast pos
  have most : (x.mantissa : ℚ) ≤ 2 ^ 53 := by exact_mod_cast x.mantissa_lt.le
  rw [← size, Binary64.size_eq, smallest] at one
  have tiny : 2 ^ 53 * Binary64.unit 0 < 1 := by
    rw [Binary64.unit, ← zpow_natCast, ← zpow_add₀ (by norm_num)]
    exact zpow_lt_one_of_neg₀ (by norm_num) (by norm_num)
  have : x.mantissa * Binary64.unit 0 ≤ 2 ^ 53 * Binary64.unit 0 := by
    have := Binary64.unit_pos 0
    gcongr
  linarith

/-! ### The text of a stream -/

private theorem written_of_lt (h : x.toInt? = some k) (small : k.natAbs < 10 ^ 15) :
    written x = signed x.isNegative (digitsOf k.natAbs ++ ".0".toList) := by
  obtain ⟨finite, num, -⟩ := parts_of_toInt? h
  obtain ⟨number, bounded⟩ := not_special finite
  have whole : x.ratio.1 % x.ratio.2 = 0 ∧ x.ratio.1 < Nat.pow 10 15 * x.ratio.2 := by
    rw [num]
    exact ⟨Nat.mul_mod_left _ _, Nat.mul_lt_mul_of_pos_right small x.ratio_pos⟩
  have quotient : x.ratio.1 / x.ratio.2 = k.natAbs := by
    rw [num, Nat.mul_div_cancel _ x.ratio_pos]
  rw [written, number, bounded]
  simp only [Bool.false_eq_true, if_false, if_pos whole, quotient]

private theorem written_of_le (h : x.toInt? = some k) (large : 10 ^ 15 ≤ k.natAbs) :
    written x = signed x.isNegative (scientific (shortest x)) := by
  obtain ⟨finite, num, -⟩ := parts_of_toInt? h
  obtain ⟨number, bounded⟩ := not_special finite
  have reaches : Nat.pow 10 15 * x.ratio.2 ≤ x.ratio.1 := by
    rw [num]
    exact Nat.mul_le_mul_right _ large
  have not_small : ¬(x.ratio.1 % x.ratio.2 = 0 ∧ x.ratio.1 < Nat.pow 10 15 * x.ratio.2) :=
    fun small => absurd reaches (not_le.mpr small.2)
  rw [written, number, bounded]
  simp only [Bool.false_eq_true, if_false, if_neg not_small, if_pos (Or.inl reaches)]

/-! ### The text shown -/

private theorem toList_signed (negative : Bool) (s : List Char) :
    (signed negative s).toList = (if negative then ['-'] else []) ++ s := by
  cases negative <;> simp [signed]

private theorem signed_injective (negative : Bool) : Function.Injective (signed negative) := by
  intro s t same
  have chars := congrArg String.toList same
  rw [toList_signed, toList_signed] at chars
  exact List.append_cancel_left chars

private theorem signed_append (negative : Bool) (s : List Char) (t : String) :
    signed negative s ++ t = signed negative (s ++ t.toList) := by
  apply String.toList_injective
  rw [String.toList_append, toList_signed, toList_signed, List.append_assoc]

/-- An integer of no more than fourteen digits is shown with all of them. -/
theorem general_of_lt (h : x.toInt? = some k) (small : k.natAbs < 10 ^ 14) :
    general x = signed x.isNegative (digitsOf k.natAbs) := by
  obtain ⟨finite, -, size⟩ := parts_of_toInt? h
  obtain ⟨number, bounded⟩ := not_special finite
  rw [general, number, bounded]
  simp only [Bool.false_eq_true, if_false]
  by_cases zero : x.magnitude = 0
  · rw [if_pos zero, (magnitude_eq_zero_iff h).mp zero]
    rfl
  · have pos : 0 < k.natAbs := by
      have := mt (magnitude_eq_zero_iff h).mpr zero
      omega
    have normal := normal_of_toInt? h pos
    have whole : (x.ratio.1 : ℚ) / x.ratio.2 = k.natAbs := by rw [← Binary64.size_eq_ratio, size]
    have value := rounded_of_lt (by decide) (ratio_pos normal) x.ratio_pos whole small
    have stripped := (rounded_fourteen normal).1
    have decade := Scaled.inDecade_lead stripped.digits_pos
    rw [value] at decade
    have positive : 0 ≤ (rounded 14 x.ratio.1 x.ratio.2).lead :=
      decade.ge (by rw [zpow_zero]; exact_mod_cast pos)
    have short : (rounded 14 x.ratio.1 x.ratio.2).lead < 14 :=
      decade.lt (by exact_mod_cast small)
    rw [if_neg zero, if_pos ⟨by omega, short⟩, positional_eq stripped value]

private theorem floatText_of_lt (h : x.toInt? = some k) (small : k.natAbs < 10 ^ 14) :
    floatText x = signed x.isNegative (digitsOf k.natAbs ++ ".0".toList) := by
  have plain : ((general x).toList.all fun c => c == '-' || c.isDigit) = true := by
    rw [general_of_lt h small, toList_signed, List.all_append, Bool.and_eq_true]
    constructor
    · cases x.isNegative <;> rfl
    · rw [List.all_eq_true]
      intro c hc
      rw [isDigit_of_mem_digitsOf hc, Bool.or_true]
  rw [floatText, if_pos plain, general_of_lt h small, signed_append]

/-- An integer of more than fourteen digits is shown with an exponent. -/
theorem general_of_le (h : x.toInt? = some k) (large : 10 ^ 14 ≤ k.natAbs) :
    general x = signed x.isNegative (scientific (rounded 14 x.ratio.1 x.ratio.2)) := by
  obtain ⟨finite, -, size⟩ := parts_of_toInt? h
  obtain ⟨number, bounded⟩ := not_special finite
  have pos : 0 < k.natAbs := lt_of_lt_of_le (by norm_num) large
  have normal := normal_of_toInt? h pos
  have some_value : x.magnitude ≠ 0 := by
    rw [ne_eq, magnitude_eq_zero_iff h]
    omega
  have decade := inDecade_size normal
  rw [size] at decade
  have long : ¬(-4 ≤ (rounded 14 x.ratio.1 x.ratio.2).lead ∧
      (rounded 14 x.ratio.1 x.ratio.2).lead < 14) := by
    have fourteen : 14 ≤ leading x.ratio.1 x.ratio.2 := decade.ge (by exact_mod_cast large)
    have := leading_le_lead (by decide : 0 < 14) (ratio_pos normal) x.ratio_pos
    omega
  rw [general, number, bounded]
  simp only [Bool.false_eq_true, if_false, if_neg some_value, if_neg long]

private theorem floatText_of_le (h : x.toInt? = some k) (large : 10 ^ 14 ≤ k.natAbs) :
    floatText x = signed x.isNegative (scientific (rounded 14 x.ratio.1 x.ratio.2)) := by
  have exponent : ¬((general x).toList.all fun c => c == '-' || c.isDigit) = true := by
    rw [general_of_le h large, toList_signed, scientific, List.all_append, List.all_append,
      List.all_cons]
    simp
  rw [floatText, if_neg exponent, general_of_le h large]

/-! ### Where the texts agree -/

/-- A decimal of no more than fourteen digits is read as the magnitude of a float. -/
def Short (x : Binary64) : Prop :=
  ∃ (c : Nat) (p : Int), c < 10 ^ 14 ∧ Binary64.ofDecimal c p = .withSign false x.magnitude

private theorem short_iff (finite : x.isFinite = true) (normal : x.biasedExponent ≠ 0) :
    Short x ↔ shortest x = rounded 14 x.ratio.1 x.ratio.2 := by
  rw [shortest_eq_rounded_iff normal, ← exists_short_iff normal, Short]
  simp only [ofDecimal_eq_iff finite normal]

/-- Digits with one decimal are no text with an exponent. -/
theorem digits_ne_scientific (n : Nat) (s : Scaled) : digitsOf n ++ ".0".toList ≠ scientific s := by
  intro same
  have exponent : 'e' ∈ scientific s := List.mem_append_right _ List.mem_cons_self
  rw [← same] at exponent
  rcases List.mem_append.mp exponent with digit | tail
  · cases isDigit_of_mem_digitsOf digit
  · revert tail
    decide

/-- The texts of an integral value agree just if it has no more than fourteen digits, or if it has
more than fifteen and no more than fourteen are needed to tell it. -/
theorem written_eq_floatText_iff (h : x.toInt? = some k) :
    written x = floatText x ↔ k.natAbs < 10 ^ 14 ∨ 10 ^ 15 ≤ k.natAbs ∧ Short x := by
  rcases Nat.lt_or_ge k.natAbs (10 ^ 14) with small | large
  · rw [written_of_lt h (by omega), floatText_of_lt h small]
    exact iff_of_true rfl (.inl small)
  · rw [floatText_of_le h large, or_iff_right (Nat.not_lt.mpr large)]
    rcases Nat.lt_or_ge k.natAbs (10 ^ 15) with between | huge
    · rw [written_of_lt h between]
      refine iff_of_false (fun same => ?_) fun both => absurd both.1 (Nat.not_le.mpr between)
      exact digits_ne_scientific _ _ (signed_injective _ same)
    · have normal := normal_of_toInt? h (lt_of_lt_of_le (by norm_num) large)
      rw [written_of_le h huge, (signed_injective _).eq_iff, scientific_injective.eq_iff,
        short_iff (parts_of_toInt? h).1 normal, and_iff_right huge]

end LuaHost.Decimal
