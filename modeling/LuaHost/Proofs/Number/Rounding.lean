import LuaHost.Proofs.Binary64
import Mathlib.Algebra.Order.Field.Power
import Mathlib.Tactic.FieldSimp
import Mathlib.Tactic.Linarith
import Mathlib.Tactic.NormNum
import Mathlib.Tactic.Positivity
import Mathlib.Tactic.Ring

/-!
# Rounding to a binary64 number

A ratio is rounded to a finite number just if it lies in an interval around the value of the number.
The interval reaches half-way to both neighbours, and its ends belong to the number whose mantissa
is even.
-/

namespace LuaHost.Binary64

/-! ### The nearest integer -/

/-- A natural number is the one nearest to a value; of two that are equally near the even one
counts. -/
def Nearest (r : Nat) (v : ℚ) : Prop := |v - r| < 1 / 2 ∨ |v - r| = 1 / 2 ∧ r % 2 = 0

private theorem Nearest.close {r : Nat} {v : ℚ} (h : Nearest r v) : |v - r| ≤ 1 / 2 := by
  rcases h with near | ⟨tie, -⟩
  · exact near.le
  · exact tie.le

private theorem nearest_iff (r : Nat) (v : ℚ) :
    Nearest r v ↔ if r % 2 = 0 then (r : ℚ) - 1 / 2 ≤ v ∧ v ≤ r + 1 / 2
      else (r : ℚ) - 1 / 2 < v ∧ v < r + 1 / 2 := by
  by_cases even : r % 2 = 0
  · rw [Nearest, if_pos even]
    simp only [even, and_true, ← le_iff_lt_or_eq, abs_le]
    constructor <;> rintro ⟨low, high⟩ <;> constructor <;> linarith
  · rw [Nearest, if_neg even]
    simp only [even, and_false, or_false, abs_lt]
    constructor <;> rintro ⟨low, high⟩ <;> constructor <;> linarith

/-- One natural number is the nearest to a value. -/
theorem Nearest.unique {r s : Nat} {v : ℚ} (hr : Nearest r v) (hs : Nearest s v) : r = s := by
  by_contra other
  have apart : (1 : ℚ) ≤ |(r : ℚ) - s| := by
    have : (1 : ℤ) ≤ |(r : ℤ) - s| := Int.one_le_abs (by omega)
    exact_mod_cast this
  have triangle : |(r : ℚ) - s| ≤ |v - r| + |v - s| := by
    rw [abs_sub_comm v r]
    exact abs_sub_le (r : ℚ) v s
  have ties : |v - r| = 1 / 2 ∧ |v - s| = 1 / 2 := by
    have := hr.close
    have := hs.close
    constructor <;> linarith
  have even_r : r % 2 = 0 := (hr.resolve_left (by rw [ties.1]; exact lt_irrefl _)).2
  have even_s : s % 2 = 0 := (hs.resolve_left (by rw [ties.2]; exact lt_irrefl _)).2
  have close : |(r : ℤ) - s| ≤ 1 := by
    have : |(r : ℚ) - s| ≤ 1 := by linarith [ties.1, ties.2]
    exact_mod_cast this
  have := abs_le.mp close
  omega

/-- A value that is not above a natural number is not rounded above it. -/
theorem Nearest.le {r n : Nat} {v : ℚ} (h : Nearest r v) (hv : v ≤ n) : r ≤ n := by
  have := (abs_le.mp h.close).1
  have : (r : ℚ) < n + 1 := by linarith
  exact Nat.le_of_lt_succ (by exact_mod_cast this)

/-- A value that is not below a natural number is not rounded below it. -/
theorem Nearest.ge {r n : Nat} {v : ℚ} (h : Nearest r v) (hv : (n : ℚ) ≤ v) : n ≤ r := by
  have := (abs_le.mp h.close).2
  have : (n : ℚ) < r + 1 := by linarith
  exact Nat.le_of_lt_succ (by exact_mod_cast this)

/-- A ratio is its quotient and a fraction. -/
theorem div_eq_quotient_add (num : Nat) {den : Nat} (h : 0 < den) :
    (num : ℚ) / den = (num / den : Nat) + ((num % den : Nat) : ℚ) / den := by
  have pos : (0 : ℚ) < den := by exact_mod_cast h
  rw [eq_comm, add_div' _ _ _ pos.ne', div_left_inj' pos.ne', mul_comm]
  exact_mod_cast Nat.div_add_mod num den

private theorem nearest_of_below {q : Nat} {f : ℚ} (low : 0 ≤ f) (below : 2 * f < 1) :
    Nearest q (q + f) := by
  left
  rw [abs_lt]
  constructor <;> linarith

private theorem nearest_of_above {q : Nat} {f : ℚ} (above : 1 < 2 * f) (high : f < 1) :
    Nearest (q + 1) (q + f) := by
  left
  push_cast
  rw [abs_lt]
  constructor <;> linarith

private theorem nearest_of_tie {q : Nat} {f : ℚ} (tie : 2 * f = 1) :
    Nearest (q + q % 2) (q + f) := by
  have half : f = 1 / 2 := by linarith
  rw [half]
  right
  rcases Nat.mod_two_eq_zero_or_one q with even | odd
  · refine ⟨?_, by omega⟩
    rw [even, Nat.add_zero, add_sub_cancel_left, abs_of_pos (by norm_num)]
  · refine ⟨?_, by omega⟩
    rw [odd]
    push_cast
    rw [add_sub_add_left_eq_sub, abs_of_neg (by norm_num)]
    norm_num

/-- Rounding a ratio gives the nearest natural number. -/
theorem nearest_roundDiv (num : Nat) {den : Nat} (h : 0 < den) :
    Nearest (roundDiv num den) ((num : ℚ) / den) := by
  have pos : (0 : ℚ) < den := by exact_mod_cast h
  rw [div_eq_quotient_add num h, roundDiv]
  generalize num / den = q
  have rest_lt := Nat.mod_lt num h
  generalize num % den = rest at rest_lt ⊢
  have twice : 2 * ((rest : ℚ) / den) = ((2 * rest : Nat) : ℚ) / den := by
    push_cast
    ring
  -- Twice the remainder against the denominator: the fraction is below a half, above it, or the
  -- tie, where the parity of the quotient decides.
  by_cases down : 2 * rest < den
  · rw [if_pos down]
    refine nearest_of_below (by positivity) ?_
    rw [twice, div_lt_one pos]
    exact_mod_cast down
  · by_cases up : den < 2 * rest
    · rw [if_neg down, if_pos up]
      refine nearest_of_above ?_ ?_
      · rw [twice, one_lt_div pos]
        exact_mod_cast up
      · rw [div_lt_one pos]
        exact_mod_cast rest_lt
    · rw [if_neg down, if_neg up]
      refine nearest_of_tie ?_
      rw [twice, div_eq_one_iff_eq pos.ne']
      exact_mod_cast (by omega : 2 * rest = den)

/-- A ratio is rounded to the natural number that is nearest. -/
theorem roundDiv_eq_iff {num den r : Nat} (h : 0 < den) :
    roundDiv num den = r ↔ Nearest r ((num : ℚ) / den) := by
  constructor
  · rintro rfl
    exact nearest_roundDiv num h
  · exact (nearest_roundDiv num h).unique

/-! ### The bits of a magnitude -/

/-- The exponent, counted from that of the smallest numbers. -/
def binade (x : Binary64) : Nat := x.biasedExponent - 1

/-- The exponent is counted from that of the smallest numbers. -/
theorem exponent_eq (x : Binary64) : x.exponent = (x.binade : Int) - 1074 := by
  unfold exponent binade
  split <;> omega

/-- A magnitude is its exponent and mantissa side by side. -/
theorem magnitude_eq (x : Binary64) : x.magnitude = x.binade * 2 ^ 52 + x.mantissa := by
  have fraction : x.fraction = x.magnitude % 2 ^ 52 := by
    simp only [Binary64.fraction, magnitude, Nat.pow_eq]
    omega
  have exponent : x.biasedExponent = x.magnitude / 2 ^ 52 := rfl
  unfold binade mantissa
  by_cases small : x.biasedExponent = 0
  · rw [if_pos small, fraction]
    omega
  · rw [if_neg small, fraction, Nat.pow_eq]
    omega

/-- The mantissa has at most 53 bits. -/
theorem mantissa_lt (x : Binary64) : x.mantissa < 2 ^ 53 := by
  have fraction : x.fraction < 2 ^ 52 := by
    simp only [Binary64.fraction, Nat.pow_eq]
    omega
  unfold mantissa
  simp only [Nat.pow_eq]
  split <;> omega

/-- The mantissa of a normal number has 53 bits. -/
theorem le_mantissa {x : Binary64} (h : x.biasedExponent ≠ 0) : 2 ^ 52 ≤ x.mantissa := by
  unfold mantissa
  rw [if_neg h]
  exact Nat.le_add_right _ _

/-- The magnitude of a finite number is below that of the infinities. -/
theorem magnitude_lt {x : Binary64} (finite : x.isFinite = true) :
    x.magnitude < 2047 * 2 ^ 52 := by
  have small : x.magnitude < 2 ^ 63 := by
    simp only [magnitude, Nat.pow_eq]
    omega
  have exponent : x.biasedExponent ≠ 2047 := by simpa [isFinite] using finite
  simp only [biasedExponent, Nat.pow_eq] at exponent
  omega

private theorem toNat_withSign {m : Nat} (h : m < 2 ^ 64) : (withSign false m).bits.toNat = m := by
  simpa [withSign] using h

/-- Positive numbers with the same bits are of the same magnitude. -/
theorem withSign_inj {m n : Nat} (hm : m < 2 ^ 64) (hn : n < 2 ^ 64)
    (same : withSign false m = withSign false n) : m = n := by
  have bits := congrArg (fun x : Binary64 => x.bits.toNat) same
  simpa only [toNat_withSign hm, toNat_withSign hn] using bits

private theorem ofScaled_of_lt {m : Nat} {q : Int} (hm : m < 2 ^ 53) :
    ofScaled false m q =
      if m < 2 ^ 52 then withSign false m
      else if 2047 ≤ q + 1075 then infinity false
      else withSign false ((q + 1075).toNat * 2 ^ 52 + (m - 2 ^ 52)) := by
  have small : ¬m ≥ Nat.pow 2 53 := Nat.not_le.mpr hm
  rw [ofScaled, if_neg small]
  rfl

private theorem ofScaled_carry (q : Int) :
    ofScaled false (2 ^ 53) q = ofScaled false (2 ^ 52) (q + 1) := by
  rw [ofScaled_of_lt (by norm_num : 2 ^ 52 < 2 ^ 53)]
  rfl

/-- A mantissa and an exponent are encoded side by side, up to infinity. -/
theorem ofScaled_eq {m j : Nat} (hm : m ≤ 2 ^ 53) (normal : 2 ^ 52 ≤ m ∨ j = 0) :
    ofScaled false m ((j : Int) - 1074) =
      withSign false (min (j * 2 ^ 52 + m) (2047 * 2 ^ 52)) := by
  have fits {m j : Nat} (hm : m < 2 ^ 53) (normal : 2 ^ 52 ≤ m ∨ j = 0) :
      ofScaled false m ((j : Int) - 1074) =
        withSign false (min (j * 2 ^ 52 + m) (2047 * 2 ^ 52)) := by
    rw [ofScaled_of_lt hm]
    by_cases small : m < 2 ^ 52
    · rw [if_pos small]
      exact congrArg (withSign false) (by omega)
    · rw [if_neg small]
      by_cases infinite : 2047 ≤ (j : Int) - 1074 + 1075
      · rw [if_pos infinite]
        exact congrArg (withSign false) (by rw [Nat.pow_eq]; omega)
      · rw [if_neg infinite]
        exact congrArg (withSign false) (by omega)
  rcases Nat.lt_or_eq_of_le hm with less | rfl
  · exact fits less normal
  · have next : (j : Int) - 1074 + 1 = ((j + 1 : Nat) : Int) - 1074 := by omega
    rw [ofScaled_carry, next, fits (by norm_num) (.inl le_rfl)]
    exact congrArg (withSign false) (by omega)

/-! ### Rounding a ratio -/

/-- The distance of numbers of an exponent, which is counted from that of the smallest ones. -/
def unit (j : Nat) : ℚ := 2 ^ ((j : Int) - 1074)

/-- The distance of numbers is positive. -/
theorem unit_pos (j : Nat) : 0 < unit j := by
  unfold unit
  positivity

private theorem unit_succ (j : Nat) : unit (j + 1) = 2 * unit j := by
  unfold unit
  rw [show ((j + 1 : Nat) : Int) - 1074 = ((j : Int) - 1074) + 1 by omega,
    zpow_add_one₀ (by norm_num), mul_comm]

private theorem unit_le {i j : Nat} (h : i ≤ j) : unit i ≤ unit j :=
  zpow_le_zpow_right₀ (by norm_num) (by omega)

/-- Numbers of this exponent are those around a value. -/
def InBinade (v : ℚ) (j : Nat) : Prop :=
  v < 2 ^ 53 * unit j ∧ (2 ^ 52 * unit j ≤ v ∨ j = 0)

private theorem InBinade.le {v : ℚ} {i j : Nat} (hi : InBinade v i) (hj : InBinade v j) :
    i ≤ j := by
  by_contra above
  have larger : 2 * unit j ≤ unit i := by
    rw [← unit_succ]
    exact unit_le (by omega)
  rcases hi.2 with low | rfl
  · linarith [hj.1]
  · omega

private theorem InBinade.unique {v : ℚ} {i j : Nat} (hi : InBinade v i) (hj : InBinade v j) :
    i = j :=
  Nat.le_antisymm (hi.le hj) (hj.le hi)

private theorem mul_unit_succ (w : ℚ) (j : Nat) : w * unit (j + 1) = 2 * w * unit j := by
  rw [unit_succ]
  ring

/-- Where a value is can be told from the number of units in it. -/
theorem inBinade_mul_unit {w : ℚ} {j : Nat} :
    InBinade (w * unit j) j ↔ w < 2 ^ 53 ∧ (2 ^ 52 ≤ w ∨ j = 0) := by
  have pos := unit_pos j
  rw [InBinade, mul_lt_mul_iff_left₀ pos, mul_le_mul_iff_left₀ pos]

private theorem scaleDown_spec (num : Nat) {den : Nat} (h : 0 < den) (e : Int) :
    0 < (scaleDown num den e).2 ∧
      ((scaleDown num den e).1 : ℚ) / (scaleDown num den e).2 = num / den / 2 ^ e := by
  cases e with
  | ofNat e =>
    refine ⟨Nat.mul_pos h (Nat.pow_pos Nat.two_pos), ?_⟩
    simp [scaleDown, div_div]
  | negSucc e =>
    refine ⟨h, ?_⟩
    rw [zpow_negSucc]
    simp only [scaleDown, Nat.pow_eq, Nat.cast_mul, Nat.cast_pow, Nat.cast_ofNat]
    field_simp

private theorem le_scaleDown_iff (num : Nat) {den : Nat} (h : 0 < den) (j : Nat) :
    2 ^ 53 ≤ (scaleDown num den ((j : Int) - 1074)).1 / (scaleDown num den ((j : Int) - 1074)).2 ↔
      2 ^ 53 * unit j ≤ (num : ℚ) / den := by
  obtain ⟨pos, scaled⟩ := scaleDown_spec num h ((j : Int) - 1074)
  have pos' : (0 : ℚ) < (scaleDown num den ((j : Int) - 1074)).2 := by exact_mod_cast pos
  rw [← le_div_iff₀ (unit_pos j), unit, ← scaled, le_div_iff₀ pos', Nat.le_div_iff_mul_le pos]
  norm_cast

private theorem log2_le {n : Nat} (h : 0 < n) : (2 : ℚ) ^ (n.log2 : Int) ≤ n := by
  rw [zpow_natCast]
  exact_mod_cast Nat.log2_self_le h.ne'

/-- A natural number is below the power of two above its logarithm. -/
theorem lt_log2 (n : Nat) : (n : ℚ) < 2 ^ ((n.log2 : Int) + 1) := by
  have above : n < 2 ^ (n.log2 + 1) := Nat.lt_log2_self
  have shown : ((n.log2 : Int) + 1) = ((n.log2 + 1 : Nat) : Int) := by omega
  rw [shown, zpow_natCast]
  exact_mod_cast above

/-- A ratio lies between powers of two that the lengths of its parts give. -/
theorem log2_ratio {num den : Nat} (hnum : 0 < num) (hden : 0 < den) :
    (2 : ℚ) ^ ((num.log2 : Int) - den.log2 - 1) ≤ num / den ∧
      (num : ℚ) / den < 2 ^ ((num.log2 : Int) - den.log2 + 1) := by
  have pos : (0 : ℚ) < den := by exact_mod_cast hden
  have two : (2 : ℚ) ≠ 0 := by norm_num
  constructor
  · rw [le_div_iff₀ pos]
    calc (2 : ℚ) ^ ((num.log2 : Int) - den.log2 - 1) * den
        ≤ 2 ^ ((num.log2 : Int) - den.log2 - 1) * 2 ^ ((den.log2 : Int) + 1) := by
          gcongr
          exact (lt_log2 den).le
      _ = 2 ^ (num.log2 : Int) := by
          rw [← zpow_add₀ two]
          congr 1
          omega
      _ ≤ num := log2_le hnum
  · rw [div_lt_iff₀ pos]
    calc (num : ℚ) < 2 ^ ((num.log2 : Int) + 1) := lt_log2 num
      _ = 2 ^ ((num.log2 : Int) - den.log2 + 1) * 2 ^ (den.log2 : Int) := by
          rw [← zpow_add₀ two]
          congr 1
          omega
      _ ≤ 2 ^ ((num.log2 : Int) - den.log2 + 1) * den := by
          gcongr
          exact log2_le hden

private theorem InBinade.mantissa {v : ℚ} {j m : Nat} (binade : InBinade v j)
    (near : Nearest m (v / unit j)) : m ≤ 2 ^ 53 ∧ (2 ^ 52 ≤ m ∨ j = 0) := by
  constructor
  · apply near.le
    push_cast
    exact (div_le_iff₀ (unit_pos j)).mpr binade.1.le
  · refine binade.2.imp_left fun low => near.ge ?_
    push_cast
    exact (le_div_iff₀ (unit_pos j)).mpr low

/-- On the grid around a ratio the nearest mantissa is encoded. -/
theorem ofScaled_nearest {num den j : Nat} (hden : 0 < den)
    (binade : InBinade ((num : ℚ) / den) j) :
    let q := (j : Int) - 1074
    ∃ m, Nearest m ((num : ℚ) / den / unit j) ∧
      ofScaled false (roundDiv (scaleDown num den q).1 (scaleDown num den q).2) q =
        withSign false (min (j * 2 ^ 52 + m) (2047 * 2 ^ 52)) := by
  intro q
  obtain ⟨pos, scaled⟩ := scaleDown_spec num hden q
  have near := nearest_roundDiv (scaleDown num den q).1 pos
  rw [scaled] at near
  obtain ⟨small, normal⟩ := binade.mantissa near
  exact ⟨_, near, ofScaled_eq small normal⟩

/-- The exponent of a ratio is the one that the lengths of its parts give, or the next. -/
theorem inBinade_of_log2 {num den i : Nat} (hnum : 0 < num) (hden : 0 < den)
    (hi : max ((num.log2 : Int) - (den.log2 : Int) - 53) (-1074) = (i : Int) - 1074) :
    InBinade ((num : ℚ) / den) (if 2 ^ 53 * unit i ≤ (num : ℚ) / den then i + 1 else i) := by
  obtain ⟨low, high⟩ := log2_ratio hnum hden
  have two : (2 : ℚ) ≠ 0 := by norm_num
  split
  · next far =>
    refine ⟨high.trans_le ?_, .inl ?_⟩
    · rw [unit, ← zpow_natCast, ← zpow_add₀ two]
      exact zpow_le_zpow_right₀ (by norm_num) (by push_cast; omega)
    · rw [unit_succ]
      linarith
  · next near =>
    refine ⟨not_le.mp near, ?_⟩
    rcases Nat.eq_zero_or_pos i with smallest | larger
    · exact .inr smallest
    · left
      refine le_trans ?_ low
      rw [unit, ← zpow_natCast, ← zpow_add₀ two]
      exact zpow_le_zpow_right₀ (by norm_num) (by push_cast; omega)

/-- A ratio is rounded on the grid of the numbers around it. -/
theorem ofRatio_eq {num den : Nat} (hnum : 0 < num) (hden : 0 < den) :
    ∃ j m, InBinade ((num : ℚ) / den) j ∧ Nearest m ((num : ℚ) / den / unit j) ∧
      ofRatio false num den = withSign false (min (j * 2 ^ 52 + m) (2047 * 2 ^ 52)) := by
  obtain ⟨i, hi⟩ : ∃ i : Nat,
      max ((num.log2 : Int) - (den.log2 : Int) - 53) (-1074) = (i : Int) - 1074 :=
    ⟨(max ((num.log2 : Int) - (den.log2 : Int) - 53) (-1074) + 1074).toNat, by omega⟩
  have binade := inBinade_of_log2 hnum hden hi
  have chosen : ofRatio false num den =
      (let p := scaleDown num den ((i : Int) - 1074)
      let q := if 2 ^ 53 ≤ p.1 / p.2 then (i : Int) - 1074 + 1 else (i : Int) - 1074
      ofScaled false (roundDiv (scaleDown num den q).1 (scaleDown num den q).2) q) := by
    rw [ofRatio, if_neg hnum.ne', hi]
    rfl
  have exponent : (if 2 ^ 53 * unit i ≤ (num : ℚ) / den then (i : Int) - 1074 + 1
      else (i : Int) - 1074) =
      ((if 2 ^ 53 * unit i ≤ (num : ℚ) / den then i + 1 else i : Nat) : Int) - 1074 := by
    split <;> omega
  obtain ⟨m, near, encoded⟩ := ofScaled_nearest hden binade
  refine ⟨_, m, binade, near, ?_⟩
  simp only [chosen, le_scaleDown_iff num hden, exponent]
  exact encoded

/-! ### The interval around a number -/

/-- How far below a number half-way to the one below is. That one is nearer where the exponent
changes. -/
def reach (x : Binary64) : ℚ := if x.mantissa = 2 ^ 52 ∧ x.binade ≠ 0 then 1 / 4 else 1 / 2

private theorem reach_bounds (x : Binary64) : 0 < x.reach ∧ x.reach ≤ 1 / 2 := by
  unfold reach
  split <;> norm_num

/-- Half-way to the number below. -/
def lowEnd (x : Binary64) : ℚ := (x.mantissa - x.reach) * unit x.binade

/-- Half-way to the number above. -/
def highEnd (x : Binary64) : ℚ := (x.mantissa + 1 / 2) * unit x.binade

/-- A value is rounded to the magnitude of a number: it lies in the interval around it, or at one of
the ends if the mantissa is even. -/
def Rounds (x : Binary64) (v : ℚ) : Prop :=
  if x.mantissa % 2 = 0 then x.lowEnd ≤ v ∧ v ≤ x.highEnd else x.lowEnd < v ∧ v < x.highEnd

/-- The size is the mantissa in units of its exponent. -/
theorem size_eq (x : Binary64) : x.size = x.mantissa * unit x.binade := by
  rw [size, exponent_eq]
  rfl

/-- The interval around a number reaches no farther than half-way on either side. -/
theorem Rounds.close {x : Binary64} {v : ℚ} (h : x.Rounds v) :
    |v - x.size| ≤ unit x.binade / 2 := by
  have pos := unit_pos x.binade
  have low : (x.mantissa - 1 / 2) * unit x.binade ≤ x.lowEnd := by
    unfold lowEnd
    gcongr
    exact x.reach_bounds.2
  have within : x.lowEnd ≤ v ∧ v ≤ x.highEnd := by
    unfold Rounds at h
    split at h
    · exact h
    · exact ⟨h.1.le, h.2.le⟩
  have high := within.2
  unfold highEnd at high
  rw [size_eq, abs_le]
  constructor <;> linarith [within.1]

private theorem rounds_size (x : Binary64) : x.Rounds x.size := by
  have pos := unit_pos x.binade
  have low : x.lowEnd < x.size := by
    rw [size_eq, lowEnd]
    gcongr
    linarith [x.reach_bounds.1]
  have high : x.size < x.highEnd := by
    rw [size_eq, highEnd]
    gcongr
    linarith
  unfold Rounds
  split
  · exact ⟨low.le, high.le⟩
  · exact ⟨low, high⟩

/-- What lies between a value that is rounded to a number and the number is rounded to it, too. -/
theorem Rounds.between {x : Binary64} {v w : ℚ} (h : x.Rounds v) (low : v ≤ w) (high : w ≤ x.size) :
    x.Rounds w := by
  have top := x.rounds_size
  unfold Rounds at h top ⊢
  split at h
  · next even =>
    rw [if_pos even] at top ⊢
    exact ⟨h.1.trans low, high.trans top.2⟩
  · next odd =>
    rw [if_neg odd] at top ⊢
    exact ⟨h.1.trans_le low, high.trans_lt top.2⟩

private theorem encoded_iff {j m k n : Nat} (hm : m ≤ 2 ^ 53) (hm' : 2 ^ 52 ≤ m ∨ j = 0)
    (hn : n < 2 ^ 53)
    (hn' : 2 ^ 52 ≤ n ∨ k = 0) :
    j * 2 ^ 52 + m = k * 2 ^ 52 + n ↔
      j = k ∧ m = n ∨ j + 1 = k ∧ m = 2 ^ 53 ∧ n = 2 ^ 52 := by
  constructor
  · intro same
    omega
  · omega

private theorem rounds_scaled (x : Binary64) (w : ℚ) :
    x.Rounds (w * unit x.binade) ↔
      if x.mantissa % 2 = 0 then x.mantissa - x.reach ≤ w ∧ w ≤ x.mantissa + 1 / 2
      else x.mantissa - x.reach < w ∧ w < x.mantissa + 1 / 2 := by
  have pos := unit_pos x.binade
  simp only [Rounds, lowEnd, highEnd, mul_le_mul_iff_left₀ pos, mul_lt_mul_iff_left₀ pos]

/-- On the grid of a number its interval holds what is nearest to its mantissa. -/
theorem rounds_on_grid {x : Binary64} {w : ℚ} (low : 2 ^ 52 ≤ w ∨ x.binade = 0) :
    x.Rounds (w * unit x.binade) ↔ Nearest x.mantissa w := by
  rw [rounds_scaled, nearest_iff]
  by_cases smallest : x.mantissa = 2 ^ 52 ∧ x.binade ≠ 0
  · -- The nearer end is out of sight from the grid.
    have above := low.resolve_right smallest.2
    rw [reach, if_pos smallest, smallest.1]
    push_cast
    constructor <;> rintro ⟨-, high⟩ <;> constructor <;> linarith
  · rw [reach, if_neg smallest]

/-- Below the grid of a number only the interval of the smallest mantissa goes on, half as far. -/
theorem rounds_below_grid {x : Binary64} {w : ℚ} (high : w < 2 ^ 52) (normal : x.binade ≠ 0) :
    x.Rounds (w * unit x.binade) ↔ x.mantissa = 2 ^ 52 ∧ Nearest (2 ^ 53) (2 * w) := by
  have least : 2 ^ 52 ≤ x.mantissa := le_mantissa (by unfold Binary64.binade at normal; omega)
  rw [rounds_scaled, nearest_iff, if_pos (by norm_num : 2 ^ 53 % 2 = 0)]
  by_cases smallest : x.mantissa = 2 ^ 52
  · have reach : x.reach = 1 / 4 := if_pos ⟨smallest, normal⟩
    rw [reach, smallest, and_iff_right rfl]
    push_cast
    constructor <;> rintro ⟨low, -⟩ <;> constructor <;> linarith
  · have more : (2 : ℚ) ^ 52 + 1 ≤ x.mantissa := by
      have : 2 ^ 52 + 1 ≤ x.mantissa := by omega
      exact_mod_cast this
    have near := x.reach_bounds.2
    simp only [smallest, false_and, iff_false]
    split <;> rintro ⟨low, -⟩ <;> linarith

/-- A value is rounded to a number on the grid of the number, or on the finer one below. -/
theorem rounds_iff {x : Binary64} {v : ℚ} {j m : Nat} (binade : InBinade v j)
    (near : Nearest m (v / unit j)) :
    x.Rounds v ↔ j = x.binade ∧ m = x.mantissa ∨
      j + 1 = x.binade ∧ m = 2 ^ 53 ∧ x.mantissa = 2 ^ 52 := by
  obtain ⟨w, rfl⟩ : ∃ w, v = w * unit x.binade :=
    ⟨v / unit x.binade, by field_simp [(unit_pos x.binade).ne']⟩
  have short : (x.mantissa : ℚ) + 1 ≤ 2 ^ 53 := by exact_mod_cast x.mantissa_lt
  by_cases low : 2 ^ 52 ≤ w ∨ x.binade = 0
  · rw [rounds_on_grid low]
    constructor
    · intro nearest
      have below : w < 2 ^ 53 := by linarith [(abs_le.mp nearest.close).2]
      obtain rfl := binade.unique (inBinade_mul_unit.mpr ⟨below, low⟩)
      rw [mul_div_cancel_right₀ _ (unit_pos _).ne'] at near
      exact .inl ⟨rfl, near.unique nearest⟩
    · rintro (⟨rfl, rfl⟩ | ⟨below, -, -⟩)
      · rwa [mul_div_cancel_right₀ _ (unit_pos _).ne'] at near
      · have above := low.resolve_right (by omega)
        rw [← below, mul_unit_succ, inBinade_mul_unit] at binade
        linarith [binade.1]
  -- Below the binade of the number the grid is twice as fine, and the number is its power of two.
  · obtain ⟨high, normal⟩ := not_or.mp low
    rw [rounds_below_grid (not_le.mp high) normal]
    obtain ⟨k, hk⟩ : ∃ k, x.binade = k + 1 := ⟨x.binade - 1, by omega⟩
    constructor
    · rintro ⟨smallest, nearest⟩
      have above : 2 ^ 52 ≤ 2 * w := by
        have := (abs_le.mp nearest.close).1
        push_cast at this
        linarith
      rw [hk, mul_unit_succ] at binade near
      obtain rfl := binade.unique (inBinade_mul_unit.mpr ⟨by linarith, .inl above⟩)
      rw [mul_div_cancel_right₀ _ (unit_pos _).ne'] at near
      exact .inr ⟨hk.symm, near.unique nearest, smallest⟩
    · rintro (⟨rfl, -⟩ | ⟨below, rfl, smallest⟩)
      · exact absurd (inBinade_mul_unit.mp binade).2 low
      · rw [← below, mul_unit_succ, mul_div_cancel_right₀ _ (unit_pos _).ne'] at near
        exact ⟨smallest, near⟩

/-- A ratio is rounded to a number just if it lies in the interval around it. -/
theorem ofRatio_eq_iff {x : Binary64} (finite : x.isFinite = true) {num den : Nat}
    (hnum : 0 < num) (hden : 0 < den) :
    ofRatio false num den = withSign false x.magnitude ↔ x.Rounds ((num : ℚ) / den) := by
  obtain ⟨j, m, binade, near, rounded⟩ := ofRatio_eq hnum hden
  obtain ⟨small, normal⟩ := binade.mantissa near
  have below := magnitude_lt finite
  have mantissa_normal : 2 ^ 52 ≤ x.mantissa ∨ x.binade = 0 := by
    by_cases subnormal : x.biasedExponent = 0
    · exact .inr (by rw [Binary64.binade, subnormal])
    · exact .inl (le_mantissa subnormal)
  rw [rounds_iff binade near, ← encoded_iff small normal x.mantissa_lt mantissa_normal,
    ← magnitude_eq, rounded]
  constructor
  · intro same
    have := withSign_inj (by omega) (by omega) same
    omega
  · intro same
    rw [same, Nat.min_eq_left below.le]

end LuaHost.Binary64
