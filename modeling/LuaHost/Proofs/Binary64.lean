import LuaHost.Number.Binary64
import Mathlib.Algebra.Order.Field.Rat
import Mathlib.Tactic.Linarith

/-!
# What a binary64 number is worth

The value of a finite number is a rational one, and the number is read as an integer just if its
value is one.
-/

namespace LuaHost.Binary64

/-- The value of a finite number. -/
def value (x : Binary64) : ℚ := (if x.isNegative then -1 else 1) * (x.mantissa * 2 ^ x.exponent)

/-- The denominator of the ratio is positive. -/
theorem ratio_pos (x : Binary64) : 0 < x.ratio.2 := by
  unfold ratio
  split
  · exact Nat.one_pos
  · exact Nat.pow_pos Nat.two_pos

/-- The absolute value of a finite number. -/
def size (x : Binary64) : ℚ := x.mantissa * 2 ^ x.exponent

/-- The size is the ratio, read as a rational number. -/
theorem size_eq_ratio (x : Binary64) : x.size = (x.ratio.1 : ℚ) / x.ratio.2 := by
  unfold size ratio
  split
  · next e he => simp [he]
  · next e he =>
    rw [he, zpow_negSucc, div_eq_mul_inv]
    simp

/-- The value is the ratio with the sign. -/
theorem value_eq_ratio (x : Binary64) :
    x.value = (if x.isNegative then -1 else 1) * ((x.ratio.1 : ℚ) / x.ratio.2) := by
  rw [← size_eq_ratio]
  rfl

/-- A number is read as an integer just if that is its value. -/
theorem toInt?_eq_some_iff {x : Binary64} {i : Int} :
    x.toInt? = some i ↔ x.isFinite = true ∧ x.value = i := by
  unfold toInt?
  by_cases finite : x.isFinite = true
  · have pos := x.ratio_pos
    rw [if_pos finite, value_eq_ratio]
    generalize x.ratio = r at pos ⊢
    obtain ⟨num, den⟩ := r
    have nonzero : (den : ℚ) ≠ 0 := by exact_mod_cast pos.ne'
    by_cases divides : num % den = 0
    · obtain ⟨k, rfl⟩ := Nat.dvd_of_mod_eq_zero divides
      have quotient : ((den * k : Nat) : ℚ) / den = k := by
        rw [Nat.cast_mul, mul_div_cancel_left₀ _ nonzero]
      simp only [if_pos divides, Nat.mul_div_cancel_left k pos, quotient, finite, true_and,
        Option.some.injEq]
      split <;> norm_cast <;> simp
    · simp only [if_neg divides, finite, true_and, reduceCtorEq, false_iff]
      intro whole
      obtain ⟨j, hj⟩ : ∃ j : Int, (num : ℚ) / den = j := by
        split at whole
        · exact ⟨-i, by push_cast; linarith⟩
        · exact ⟨i, by linarith⟩
      have multiple : (num : Int) = den * j := by
        rw [div_eq_iff nonzero] at hj
        exact_mod_cast hj.trans (mul_comm _ _)
      have divisible : (den : Int) ∣ num := ⟨j, multiple⟩
      exact divides (Nat.mod_eq_zero_of_dvd (Int.natCast_dvd_natCast.mp divisible))
  · simp [finite]

end LuaHost.Binary64
