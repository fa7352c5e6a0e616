import LuaHost.Number.Decimal
import LuaHost.Proofs.Number.Rounding

/-!
# Decimals of a number of digits

A positive decimal without zeros at its end is fixed by its value, and by the text it is written as.
The decimal that a ratio is rounded to is the nearest one on the grid of its number of digits.
-/

namespace LuaHost.Decimal

open Binary64 (Nearest nearest_roundDiv roundDiv)

/-! ### Digits -/

private theorem digitsOf_injective : Function.Injective digitsOf := by
  intro m n same
  have read := congrArg (fun digits => Nat.ofDigitChars 10 digits 0) same
  simpa only [digitsOf, Nat.ofDigitChars_ten_toDigits] using read

/-- Decimal digits are digits. -/
theorem isDigit_of_mem_digitsOf {n : Nat} {c : Char} (h : c ∈ digitsOf n) : c.isDigit = true :=
  Nat.isDigit_of_mem_toDigits (by decide) (by decide) h

private theorem length_digitsOf_pos (n : Nat) : 0 < (digitsOf n).length := Nat.length_toDigits_pos

private theorem lt_pow_length (n : Nat) : n < 10 ^ (digitsOf n).length :=
  (Nat.length_toDigits_le_iff (by decide) (length_digitsOf_pos n)).mp le_rfl

private theorem pow_length_le {n : Nat} (h : 0 < n) : 10 ^ ((digitsOf n).length - 1) ≤ n := by
  by_cases one : (digitsOf n).length = 1
  · rw [one]
    exact h
  · have pos := length_digitsOf_pos n
    by_contra small
    have short := (Nat.length_toDigits_le_iff (n := n) (by decide : 1 < 10)
      (by omega : 0 < (digitsOf n).length - 1)).mpr (not_le.mp small)
    change (digitsOf n).length ≤ _ at short
    omega

private theorem digitsOf_mul_pow {n : Nat} (h : 0 < n) (e : Nat) :
    digitsOf (n * 10 ^ e) = digitsOf n ++ List.replicate e '0' := by
  induction e with
  | zero => simp
  | succ e ih =>
    have pos : 0 < n * 10 ^ e := Nat.mul_pos h (Nat.pow_pos (by decide))
    have next := Nat.toDigits_append_toDigits (b := 10) (d := 0) (by decide) pos (by decide)
    have whole : n * 10 ^ (e + 1) = 10 * (n * 10 ^ e) + 0 := by ring
    rw [whole, digitsOf, ← next, ← digitsOf, ih, List.append_assoc, List.replicate_succ']
    rfl

/-! ### Decades -/

/-- A value has its leading digit at this power of ten. -/
def InDecade (v : ℚ) (l : Int) : Prop := 10 ^ l ≤ v ∧ v < 10 ^ (l + 1)

/-- A value below a power of ten has its leading digit below it. -/
theorem InDecade.lt {v : ℚ} {l k : Int} (h : InDecade v l) (below : v < 10 ^ k) : l < k :=
  (zpow_lt_zpow_iff_right₀ (by norm_num : (1 : ℚ) < 10)).mp (h.1.trans_lt below)

/-- A value from a power of ten on has its leading digit there or above. -/
theorem InDecade.ge {v : ℚ} {l k : Int} (h : InDecade v l) (above : 10 ^ k ≤ v) : k ≤ l :=
  Int.le_of_lt_add_one
    ((zpow_lt_zpow_iff_right₀ (by norm_num : (1 : ℚ) < 10)).mp (above.trans_lt h.2))

/-- A value has one leading digit. -/
theorem InDecade.unique {v : ℚ} {l k : Int} (hl : InDecade v l) (hk : InDecade v k) : l = k :=
  le_antisymm (hk.ge hl.1) (hl.ge hk.1)

/-- A natural power of ten times an integer one. -/
theorem pow_mul_zpow (n : Nat) (p : Int) : (10 : ℚ) ^ n * 10 ^ p = 10 ^ (n + p) := by
  rw [zpow_add₀ (by norm_num), zpow_natCast]

/-- Shifting a ratio multiplies it by a power of ten. -/
theorem shift_spec (num : Nat) {den : Nat} (h : 0 < den) (e : Int) :
    0 < (shift num den e).2 ∧
      ((shift num den e).1 : ℚ) / (shift num den e).2 = num / den * 10 ^ e := by
  cases e with
  | ofNat e =>
    refine ⟨h, ?_⟩
    simp only [shift, Nat.pow_eq, Nat.cast_mul, Nat.cast_pow, Nat.cast_ofNat, Int.ofNat_eq_natCast,
      zpow_natCast]
    ring
  | negSucc e =>
    refine ⟨Nat.mul_pos h (Nat.pow_pos (by decide)), ?_⟩
    rw [zpow_negSucc]
    simp only [shift, Nat.pow_eq, Nat.cast_mul, Nat.cast_pow, Nat.cast_ofNat]
    rw [← div_div, div_eq_mul_inv]

private theorem digits_bounds {n : Nat} (h : 0 < n) :
    (10 : ℚ) ^ ((digitsOf n).length - 1 : Int) ≤ n ∧
      (n : ℚ) < 10 ^ ((digitsOf n).length : Int) := by
  have pos := length_digitsOf_pos n
  have below : ((digitsOf n).length - 1 : Int) = ((digitsOf n).length - 1 : Nat) := by omega
  rw [below, zpow_natCast, zpow_natCast]
  exact ⟨by exact_mod_cast pow_length_le h, by exact_mod_cast lt_pow_length n⟩

/-- A ratio lies between powers of ten that the numbers of digits of its parts give. -/
theorem length_ratio {num den : Nat} (hnum : 0 < num) (hden : 0 < den) :
    (10 : ℚ) ^ ((digitsOf num).length - (digitsOf den).length - 1 : Int) < num / den ∧
      (num : ℚ) / den < 10 ^ ((digitsOf num).length - (digitsOf den).length + 1 : Int) := by
  obtain ⟨low, high⟩ := digits_bounds hnum
  obtain ⟨low', high'⟩ := digits_bounds hden
  have pos : (0 : ℚ) < den := by exact_mod_cast hden
  have ten : (10 : ℚ) ≠ 0 := by norm_num
  generalize ((digitsOf num).length : Int) = m at low high ⊢
  generalize ((digitsOf den).length : Int) = n at low' high' ⊢
  constructor
  · rw [lt_div_iff₀ pos]
    calc (10 : ℚ) ^ (m - n - 1) * den
        < 10 ^ (m - n - 1) * 10 ^ n := by gcongr
      _ = 10 ^ (m - 1) := by
          rw [← zpow_add₀ ten]
          congr 1
          omega
      _ ≤ num := low
  · rw [div_lt_iff₀ pos]
    calc (num : ℚ) < 10 ^ m := high
      _ = 10 ^ (m - n + 1) * 10 ^ (n - 1) := by
          rw [← zpow_add₀ ten]
          congr 1
          omega
      _ ≤ 10 ^ (m - n + 1) * den := by gcongr

private theorem shift_le_iff (num : Nat) {den : Nat} (h : 0 < den) (e : Int) :
    (shift num den (-e)).2 ≤ (shift num den (-e)).1 ↔ (10 : ℚ) ^ e ≤ num / den := by
  obtain ⟨pos, shifted⟩ := shift_spec num h (-e)
  have pos' : (0 : ℚ) < (shift num den (-e)).2 := by exact_mod_cast pos
  have power : (0 : ℚ) < 10 ^ e := by positivity
  rw [zpow_neg, ← div_eq_mul_inv] at shifted
  rw [← one_le_div power, ← shifted, one_le_div pos']
  norm_cast

/-- The leading digit of a positive ratio is found. -/
theorem leading_spec {num den : Nat} (hnum : 0 < num) (hden : 0 < den) :
    InDecade ((num : ℚ) / den) (leading num den) := by
  obtain ⟨below, above⟩ := length_ratio hnum hden
  unfold leading
  dsimp only
  generalize ((digitsOf num).length : Int) - ((digitsOf den).length : Int) = guess at below above ⊢
  have reaches := shift_le_iff num hden guess
  split
  · next enough => exact ⟨reaches.mp enough, above⟩
  · next short =>
    refine ⟨below.le, ?_⟩
    rw [sub_add_cancel]
    exact not_le.mp (mt reaches.mpr short)

/-! ### Decimals -/

/-- The value of a decimal. -/
def Scaled.value (s : Scaled) : ℚ := s.digits * 10 ^ s.scale

/-- A decimal has no zeros at its end, and is not zero. -/
def Scaled.Stripped (s : Scaled) : Prop := s.digits % 10 ≠ 0

/-- A decimal without zeros at its end is positive. -/
theorem Scaled.Stripped.digits_pos {s : Scaled} (h : s.Stripped) : 0 < s.digits := by
  unfold Stripped at h
  omega

/-- The leading digit of a decimal is where its digits begin. -/
theorem Scaled.inDecade_lead {s : Scaled} (h : 0 < s.digits) : InDecade s.value s.lead := by
  obtain ⟨low, high⟩ := digits_bounds h
  have ten : (10 : ℚ) ≠ 0 := by norm_num
  have pos := length_digitsOf_pos s.digits
  have places : s.lead = ((digitsOf s.digits).length - 1 : Int) + s.scale := by
    unfold lead
    omega
  unfold value
  constructor
  · rw [places, zpow_add₀ ten]
    gcongr
  · rw [places, show ((digitsOf s.digits).length - 1 : Int) + s.scale + 1 =
      ((digitsOf s.digits).length : Int) + s.scale by omega, zpow_add₀ ten]
    gcongr

/-- A decimal of integral value without zeros at its end has no negative power of ten. -/
theorem Scaled.Stripped.scale_nonneg {s : Scaled} (h : s.Stripped) {n : Nat}
    (whole : s.value = n) : 0 ≤ s.scale := by
  by_contra negative
  obtain ⟨e, he⟩ : ∃ e : Nat, s.scale = -((e + 1 : Nat) : Int) := ⟨(-s.scale - 1).toNat, by omega⟩
  have multiple : s.digits = n * 10 ^ (e + 1) := by
    rw [value, he, zpow_neg, zpow_natCast, ← div_eq_mul_inv, div_eq_iff (by positivity)] at whole
    exact_mod_cast whole
  apply h
  rw [multiple, pow_succ, ← mul_assoc]
  exact Nat.mul_mod_left _ _

/-- Decimals without zeros at their ends are the same when they have the same value. -/
theorem Scaled.Stripped.eq_of_value {s t : Scaled} (hs : s.Stripped) (ht : t.Stripped)
    (same : s.value = t.value) : s = t := by
  have ten : (10 : ℚ) ≠ 0 := by norm_num
  -- Seen on the grid of the other one, a decimal is a natural number.
  have le {s t : Scaled} (hs : s.Stripped) (same : s.value = t.value) : t.scale ≤ s.scale := by
    have whole : Scaled.value ⟨s.digits, s.scale - t.scale⟩ = (t.digits : ℚ) := by
      simp only [value] at same ⊢
      rw [zpow_sub₀ ten, ← mul_div_assoc, same, mul_div_cancel_right₀ _ (by positivity)]
    have := Stripped.scale_nonneg (s := ⟨s.digits, s.scale - t.scale⟩) hs whole
    exact Int.sub_nonneg.mp this
  have scales : s.scale = t.scale := le_antisymm (le ht same.symm) (le hs same)
  have digits : s.digits = t.digits := by
    rw [value, value, scales] at same
    exact_mod_cast mul_right_cancel₀ (by positivity) same
  cases s
  cases t
  simp_all

/-- Leaving out zeros at the end keeps the value. -/
theorem value_stripZeros (fuel : Nat) (s : Scaled) : (stripZeros fuel s).value = s.value := by
  induction fuel generalizing s with
  | zero => rfl
  | succ fuel ih =>
    unfold stripZeros
    split
    · next zero =>
      have ten : (10 : ℚ) ≠ 0 := by norm_num
      have whole : ((s.digits / 10 : Nat) : ℚ) * 10 = s.digits := by
        exact_mod_cast Nat.div_mul_cancel (Nat.dvd_of_mod_eq_zero zero.2)
      rw [ih, Scaled.value, Scaled.value, zpow_add_one₀ ten, ← whole]
      ring
    · rfl

/-- With enough fuel no zero is left at the end. -/
theorem stripped_stripZeros {fuel : Nat} {s : Scaled} (pos : 0 < s.digits)
    (enough : s.digits ≤ 10 ^ fuel) : (stripZeros fuel s).Stripped := by
  induction fuel generalizing s with
  | zero =>
    have one : s.digits = 1 := Nat.le_antisymm enough pos
    simp [stripZeros, Scaled.Stripped, one]
  | succ fuel ih =>
    unfold stripZeros
    split
    · next zero =>
      rw [pow_succ] at enough
      exact ih (by simp only; omega) (by simp only; omega)
    · next other =>
      unfold Scaled.Stripped
      omega

/-- On the grid of decimals with some digits a value lies between the powers of ten that are the
least number of as many digits and the least one of more. -/
theorem grid_bounds {v : ℚ} {l : Int} (decade : InDecade v l) {places : Nat}
    (hplaces : 0 < places) :
    (10 ^ (places - 1) : Nat) ≤ v / 10 ^ (l - (places - 1 : Nat)) ∧
      v / 10 ^ (l - (places - 1 : Nat)) < (10 ^ places : Nat) := by
  have power : (0 : ℚ) < 10 ^ (l - (places - 1 : Nat)) := by positivity
  rw [le_div_iff₀ power, div_lt_iff₀ power]
  push_cast
  rw [pow_mul_zpow, pow_mul_zpow]
  constructor
  · rw [add_sub_cancel]
    exact decade.1
  · rw [show (places : Int) + (l - (places - 1 : Nat)) = l + 1 by omega]
    exact decade.2

/-- A ratio is rounded to the nearest decimal of some digits, with zeros at its end left out. -/
theorem rounded_eq {places : Nat} (hplaces : 0 < places) {num den : Nat} (hnum : 0 < num)
    (hden : 0 < den) :
    ∃ r, Nearest r ((num : ℚ) / den / 10 ^ (leading num den - (places - 1 : Nat))) ∧
      10 ^ (places - 1) ≤ r ∧ r ≤ 10 ^ places ∧
      rounded places num den = stripZeros places ⟨r, leading num den - (places - 1 : Nat)⟩ := by
  obtain ⟨low, high⟩ := grid_bounds (leading_spec hnum hden) hplaces
  obtain ⟨pos, scaled⟩ := shift_spec num hden (-(leading num den - (places - 1 : Nat)))
  have near := nearest_roundDiv (shift num den (-(leading num den - (places - 1 : Nat)))).1 pos
  rw [scaled, zpow_neg, ← div_eq_mul_inv] at near
  exact ⟨_, near, near.ge low, near.le high.le, rfl⟩

/-- What is left of the nearest decimal, once zeros at its end are left out. -/
theorem rounded_spec {places : Nat} (hplaces : 0 < places) {num den : Nat} (hnum : 0 < num)
    (hden : 0 < den) :
    (rounded places num den).Stripped ∧
      ∃ r, Nearest r ((num : ℚ) / den / 10 ^ (leading num den - (places - 1 : Nat))) ∧
        10 ^ (places - 1) ≤ r ∧ r ≤ 10 ^ places ∧
        (rounded places num den).value = r * 10 ^ (leading num den - (places - 1 : Nat)) := by
  obtain ⟨r, near, low, high, eq⟩ := rounded_eq hplaces hnum hden
  rw [eq, value_stripZeros]
  refine ⟨stripped_stripZeros ?_ high, r, near, low, high, rfl⟩
  exact (Nat.pow_pos (by decide)).trans_le low

/-- Rounding to some digits never takes the leading digit down. -/
theorem leading_le_lead {places : Nat} (hplaces : 0 < places) {num den : Nat} (hnum : 0 < num)
    (hden : 0 < den) : leading num den ≤ (rounded places num den).lead := by
  obtain ⟨stripped, r, -, low, -, value⟩ := rounded_spec hplaces hnum hden
  apply (Scaled.inDecade_lead stripped.digits_pos).ge
  rw [value]
  calc (10 : ℚ) ^ leading num den
      = 10 ^ (places - 1) * 10 ^ (leading num den - (places - 1 : Nat)) := by
        rw [pow_mul_zpow, add_sub_cancel]
    _ ≤ r * 10 ^ (leading num den - (places - 1 : Nat)) := by
        gcongr
        exact_mod_cast low

private theorem nearest_self (n : Nat) : Nearest n (n : ℚ) := by
  left
  rw [sub_self, abs_zero]
  norm_num

/-- An integer that has no more than the digits is not rounded. -/
theorem rounded_of_lt {places n : Nat} (hplaces : 0 < places) {num den : Nat} (hnum : 0 < num)
    (hden : 0 < den) (whole : (num : ℚ) / den = n) (small : n < 10 ^ places) :
    (rounded places num den).value = n := by
  obtain ⟨-, r, near, -, -, value⟩ := rounded_spec hplaces hnum hden
  have decade := leading_spec hnum hden
  rw [whole] at near decade
  have below : leading num den < places := decade.lt (by exact_mod_cast small)
  obtain ⟨e, he⟩ : ∃ e : Nat, leading num den - (places - 1 : Nat) = -(e : Int) :=
    ⟨((places - 1 : Nat) - leading num den).toNat, by omega⟩
  rw [he, zpow_neg, zpow_natCast] at near value
  rw [div_inv_eq_mul] at near
  have exact : (n : ℚ) * 10 ^ e = (n * 10 ^ e : Nat) := by push_cast; ring
  rw [exact] at near
  rw [value, near.unique (nearest_self _), ← exact, mul_assoc, mul_inv_cancel₀ (by positivity),
    mul_one]

/-! ### Texts -/

/-- A whole number in positional form is its digits. -/
theorem positional_eq {s : Scaled} (stripped : s.Stripped) {n : Nat} (whole : s.value = n) :
    positional s = digitsOf n := by
  obtain ⟨e, he⟩ := Int.eq_ofNat_of_zero_le (stripped.scale_nonneg whole)
  have product : s.digits * 10 ^ e = n := by
    rw [Scaled.value, he, zpow_natCast] at whole
    exact_mod_cast whole
  rw [← product, digitsOf_mul_pow stripped.digits_pos, positional, he]

private theorem pointAfter_injective : Function.Injective (pointAfter · 1) := by
  intro a b same
  rcases a with _ | ⟨c, _ | ⟨d, a⟩⟩ <;> rcases b with _ | ⟨c', _ | ⟨d', b⟩⟩ <;>
    simp_all [pointAfter]

/-- The digits of an exponent, filled up to two. -/
theorem exponentText_injective : Function.Injective exponentText := by
  intro a b same
  have read (digits : List Char) : Nat.ofDigitChars 10
      (if digits.length < 2 then '0' :: digits else digits) 0 = Nat.ofDigitChars 10 digits 0 := by
    split
    · rw [Nat.ofDigitChars_cons]
      rfl
    · rfl
  obtain ⟨sign, digits⟩ := List.cons.inj same
  have sizes : Nat.ofDigitChars 10 (digitsOf a.natAbs) 0 =
      Nat.ofDigitChars 10 (digitsOf b.natAbs) 0 := by
    rw [← read, ← read (digitsOf b.natAbs), digits]
  simp only [digitsOf, Nat.ofDigitChars_ten_toDigits] at sizes
  have signs : a < 0 ↔ b < 0 := by
    by_cases ha : a < 0 <;> by_cases hb : b < 0 <;> simp [ha, hb] at sign ⊢
  omega

private theorem mem_pointAfter {digits : List Char} {c : Char} (h : c ∈ pointAfter digits 1) :
    c = '.' ∨ c ∈ digits := by
  unfold pointAfter at h
  dsimp only at h
  split at h
  · exact .inr (List.mem_of_mem_take h)
  · rcases List.mem_append.mp h with front | back
    · exact .inr (List.mem_of_mem_take front)
    · exact (List.mem_cons.mp back).imp_right List.mem_of_mem_drop

private theorem mem_exponentText {e : Int} {c : Char} (h : c ∈ exponentText e) :
    c = '-' ∨ c = '+' ∨ c.isDigit = true := by
  rcases List.mem_cons.mp h with sign | digits
  · split at sign
    · exact .inl sign
    · exact .inr (.inl sign)
  · refine .inr (.inr ?_)
    split at digits
    · rcases List.mem_cons.mp digits with rfl | digits
      · decide
      · exact isDigit_of_mem_digitsOf digits
    · exact isDigit_of_mem_digitsOf digits

/-- A decimal is fixed by the text with an exponent that it is written as. -/
theorem scientific_injective : Function.Injective scientific := by
  intro s t same
  have front (s : Scaled) : 'e' ∉ pointAfter (digitsOf s.digits) 1 := by
    intro h
    rcases mem_pointAfter h with point | digit
    · cases point
    · cases isDigit_of_mem_digitsOf digit
  have back (s : Scaled) : 'e' ∉ exponentText s.lead := by
    intro h
    rcases mem_exponentText h with sign | sign | digit
    · cases sign
    · cases sign
    · cases digit
  have parts : pointAfter (digitsOf s.digits) 1 ++ 'e' :: exponentText s.lead =
      pointAfter (digitsOf t.digits) 1 ++ 'e' :: exponentText t.lead := same
  obtain ⟨texts, -, exponents⟩ := (List.append_cons_inj_of_notMem (front s) (back s)).mp parts
  have digits : s.digits = t.digits := digitsOf_injective (pointAfter_injective texts)
  have leads : s.lead = t.lead := exponentText_injective exponents
  have scales : s.scale = t.scale := by
    unfold Scaled.lead at leads
    rw [digits] at leads
    omega
  cases s
  cases t
  simp_all

end LuaHost.Decimal
