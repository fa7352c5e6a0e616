import LuaHost.Handle
import Mathlib.Data.Nat.Digits.Defs

/-!
# Handles that are written and read

What is written for a handle reads back as the handle. A text is read as a handle just if it is a
mark, hexadecimal digits of a number that fits 64 bits and nothing else; but one plus sign may stand
in front of the digits.
-/

namespace LuaHost.Handle

private theorem number?_append (acc : Nat) (s t : List Char) :
    number? acc (s ++ t) = (number? acc s).bind (number? · t) := by
  induction s generalizing acc with
  | nil => rfl
  | cons c cs ih =>
    rw [List.cons_append, number?, number?]
    cases digit? c with
    | none => rfl
    | some d => exact ih _

private theorem digit?_digitChar {d : Nat} (h : d < 16) : digit? d.digitChar = some d :=
  (by decide : ∀ d < 16, digit? d.digitChar = some d) d h

private theorem number?_hexDigits (n : Nat) : number? 0 (hexDigits n) = some n := by
  have one {acc d : Nat} (h : d < 16) : number? acc [d.digitChar] = some (acc * 16 + d) := by
    rw [number?, digit?_digitChar h]
    rfl
  induction n using Nat.strongRecOn with
  | ind n ih =>
    by_cases small : n < 16
    · rw [hexDigits, Nat.toDigits_of_lt_base small, one small, Nat.zero_mul, Nat.zero_add]
    · have last : n % 16 < 16 := Nat.mod_lt n (by decide)
      have split : hexDigits n = hexDigits (n / 16) ++ [(n % 16).digitChar] := by
        rw [hexDigits, hexDigits, ← Nat.toDigits_of_lt_base last,
          Nat.toDigits_append_toDigits (by decide) (by omega) last, Nat.div_add_mod]
      rw [split, number?_append, ih (n / 16) (by omega), Option.bind_some, one last,
        Nat.div_add_mod']

/-- What is read as a number has no sign. -/
theorem unsigned_of_number? {acc n : Nat} {s : List Char} (h : number? acc s = some n) :
    unsigned s = s := by
  unfold unsigned
  split
  · simp [number?, digit?] at h
  · rfl

/-- A handle reads back from its text. -/
theorem parse?_text (h : Handle) : parse? h.text = some h := by
  have digits : digits? h.text.toList = some (hexDigits h.bits.toNat) := by
    simp [text, digits?, String.toList_append]
  have something : (hexDigits h.bits.toNat).isEmpty = false :=
    List.isEmpty_eq_false_iff.mpr Nat.toDigits_ne_nil
  have bounded : h.bits.toNat < UInt64.size := h.bits.toNat_lt
  have read := number?_hexDigits h.bits.toNat
  simp only [parse?, digits, unsigned_of_number? read, read, something, bounded,
    Option.bind_eq_bind, Option.bind_some, if_true, Bool.false_eq_true, if_false]
  exact congrArg (some ∘ Handle.mk) (UInt64.ofNat_toNat)

/-! ## The grammar of written handles -/

/-- The sixteen digits in the order of their worth. -/
def alphabet : List Char :=
  ['0', '1', '2', '3', '4', '5', '6', '7', '8', '9', 'a', 'b', 'c', 'd', 'e', 'f']

/-- A hexadecimal digit; letters may be of either case. -/
def IsDigit (c : Char) : Prop := c.toLower ∈ alphabet

/-- What a digit is worth. -/
def worth (c : Char) : Nat := alphabet.idxOf c.toLower

/-- The number that digits stand for; the last of them counts ones. -/
def value (digits : List Char) : Nat := Nat.ofDigits 16 (digits.reverse.map worth)

/-- A text is a mark, a sign and one or more digits that stand for a number. -/
def Spells (sign text : List Char) (n : Nat) : Prop :=
  ∃ mark digits, (mark = 'x' ∨ mark = 'X') ∧ text = '0' :: mark :: (sign ++ digits) ∧
    digits ≠ [] ∧ (∀ c ∈ digits, IsDigit c) ∧ value digits = n

private theorem value_cons (c : Char) (cs : List Char) :
    value (c :: cs) = value cs + 16 ^ cs.length * worth c := by
  simp [value, Nat.ofDigits_append]

/-- Nothing beyond the ASCII characters is a digit. -/
theorem not_isDigit_of_le {c : Char} (h : 128 ≤ c.toNat) : digit? c = none ∧ ¬IsDigit c := by
  have above {d : Char} (hd : d.toNat < 128) : ¬c ≤ d := by
    intro le
    have : c.toNat ≤ d.toNat := le
    omega
  have lower : c.toLower = c := dif_neg fun letter => above (d := 'Z') (by decide) letter.2
  constructor
  · simp [digit?, above (d := '9') (by decide), above (d := 'f') (by decide),
      above (d := 'F') (by decide)]
  · rw [IsDigit, lower]
    intro mem
    have ascii : ∀ d ∈ alphabet, d.toNat < 128 := by simp [alphabet]
    exact absurd (ascii c mem) (Nat.not_lt.mpr h)

private theorem digit?_eq_some_iff {c : Char} {d : Nat} :
    digit? c = some d ↔ IsDigit c ∧ worth c = d := by
  by_cases ascii : c.toNat < 128
  · have table : ∀ n < 128, digit? (Char.ofNat n) =
        if (Char.ofNat n).toLower ∈ alphabet then some (worth (Char.ofNat n)) else none := by
      decide +kernel
    have entry := table c.toNat ascii
    rw [Char.ofNat_toNat] at entry
    rw [entry, IsDigit]
    split <;> simp [*]
  · obtain ⟨none_, other⟩ := not_isDigit_of_le (Nat.not_lt.mp ascii)
    simp [none_, other]

/-- Digits are read as the number that they stand for, behind the digits that were read before. -/
theorem number?_eq_some_iff {acc n : Nat} {s : List Char} :
    number? acc s = some n ↔ (∀ c ∈ s, IsDigit c) ∧ acc * 16 ^ s.length + value s = n := by
  induction s generalizing acc with
  | nil => simp [number?, value]
  | cons c cs ih =>
    have shift (d : Nat) : (acc * 16 + d) * 16 ^ cs.length + value cs =
        acc * 16 ^ (cs.length + 1) + (value cs + 16 ^ cs.length * d) := by ring
    rw [number?, Option.bind_eq_some_iff, List.forall_mem_cons, List.length_cons, value_cons,
      ← shift]
    constructor
    · rintro ⟨d, digit, rest⟩
      obtain ⟨isDigit, rfl⟩ := digit?_eq_some_iff.mp digit
      obtain ⟨digits, sum⟩ := ih.mp rest
      exact ⟨⟨isDigit, digits⟩, sum⟩
    · rintro ⟨⟨isDigit, digits⟩, sum⟩
      exact ⟨worth c, digit?_eq_some_iff.mpr ⟨isDigit, rfl⟩, ih.mpr ⟨digits, sum⟩⟩

private theorem digits?_eq_some_iff {s written : List Char} :
    digits? s = some written ↔ ∃ mark, (mark = 'x' ∨ mark = 'X') ∧ s = '0' :: mark :: written := by
  constructor
  · intro read
    unfold digits? at read
    split at read
    · obtain rfl := Option.some.inj read
      exact ⟨'x', .inl rfl, rfl⟩
    · obtain rfl := Option.some.inj read
      exact ⟨'X', .inr rfl, rfl⟩
    · cases read
  · rintro ⟨mark, rfl | rfl, rfl⟩ <;> rfl

/-- A spelling is read as the mark, the sign, and digits of the number. -/
theorem spells_iff {sign text : List Char} {n : Nat} :
    Spells sign text n ↔ ∃ digits, digits? text = some (sign ++ digits) ∧ digits ≠ [] ∧
      number? 0 digits = some n := by
  simp only [digits?_eq_some_iff, number?_eq_some_iff, Nat.zero_mul, Nat.zero_add]
  constructor
  · rintro ⟨mark, digits, isMark, spelled, nonempty, isDigit, sum⟩
    exact ⟨digits, ⟨mark, isMark, spelled⟩, nonempty, isDigit, sum⟩
  · rintro ⟨digits, ⟨mark, isMark, spelled⟩, nonempty, isDigit, sum⟩
    exact ⟨mark, digits, isMark, spelled, nonempty, isDigit, sum⟩

private theorem unsigned_cases (written : List Char) :
    written = '+' :: unsigned written ∨ unsigned written = written := by
  unfold unsigned
  split
  · exact .inl rfl
  · exact .inr rfl

/-- The number of the handle that is read from a text. -/
theorem bits_parse?_eq_some_iff {text : String} {n : Nat} :
    (parse? text).map (·.bits.toNat) = some n ↔
      ∃ written, digits? text.toList = some written ∧ unsigned written ≠ [] ∧
        number? 0 (unsigned written) = some n ∧ n < 2 ^ 64 := by
  unfold parse?
  cases digits? text.toList with
  | none => simp
  | some written =>
    simp only [Option.bind_eq_bind, Option.bind_some, Option.some.injEq, exists_eq_left']
    by_cases nothing : unsigned written = []
    · simp [nothing]
    · cases number? 0 (unsigned written) with
      | none => simp [nothing]
      | some m =>
        by_cases fits : m < UInt64.size
        · have back : m.toUInt64.toNat = m := UInt64.toNat_ofNat_of_lt fits
          have bound : m < 2 ^ 64 := fits
          simp only [List.isEmpty_eq_false_iff.mpr nothing, Bool.false_eq_true, if_false,
            Option.bind_some, if_pos fits, Option.map_some, back, Option.some.injEq]
          constructor
          · rintro rfl
            exact ⟨nothing, rfl, bound⟩
          · rintro ⟨-, same, -⟩
            exact same
        · simp only [List.isEmpty_eq_false_iff.mpr nothing, Bool.false_eq_true, if_false,
            Option.bind_some, if_neg fits, Option.map_none, Option.some.injEq]
          constructor
          · exact nofun
          · rintro ⟨-, rfl, bound⟩
            exact absurd bound fits

/-- Just the spellings of numbers below 2 ^ 64 are read, as the handles with these numbers, whether
or not a plus sign stands before the digits. A text with no plus sign there is read just if it
spells such a number without a sign. What is written for a handle reads back as the handle. -/
theorem reads_exactly (text : String) (n : Nat) :
    ((parse? text).map (·.bits.toNat) = some n ↔
      (Spells [] text.toList n ∨ Spells ['+'] text.toList n) ∧ n < 2 ^ 64) ∧
    (text.toList[2]? ≠ some '+' →
      ((parse? text).map (·.bits.toNat) = some n ↔ Spells [] text.toList n ∧ n < 2 ^ 64)) ∧
    ∀ h : Handle, parse? h.text = some h := by
  have reads : (parse? text).map (·.bits.toNat) = some n ↔
      (Spells [] text.toList n ∨ Spells ['+'] text.toList n) ∧ n < 2 ^ 64 := by
    rw [bits_parse?_eq_some_iff, spells_iff, spells_iff]
    constructor
    · rintro ⟨written, behind, nonempty, read, bound⟩
      rcases unsigned_cases written with signed | bare
      · rw [signed] at behind
        exact ⟨.inr ⟨unsigned written, behind, nonempty, read⟩, bound⟩
      · rw [bare] at nonempty read
        exact ⟨.inl ⟨written, behind, nonempty, read⟩, bound⟩
    · rintro ⟨⟨digits, behind, nonempty, read⟩ | ⟨digits, behind, nonempty, read⟩, bound⟩
      · have bare := unsigned_of_number? read
        exact ⟨digits, behind, bare.symm ▸ nonempty, bare.symm ▸ read, bound⟩
      · exact ⟨'+' :: digits, behind, nonempty, read, bound⟩
  refine ⟨reads, fun bare => ?_, parse?_text⟩
  have unsigned_ : ¬Spells ['+'] text.toList n := by
    rintro ⟨mark, digits, -, spelled, -⟩
    rw [spelled] at bare
    exact bare rfl
  rw [reads, or_iff_left unsigned_]

/-- The case of digits in both cases behind an upper case prefix. -/
theorem reads_exactly_upper_case :
    "0XfF".toList[2]? ≠ some '+' ∧ Spells [] "0XfF".toList 255 ∧
      parse? "0XfF" = some ⟨255⟩ ∧ parse? (Handle.text ⟨255⟩) = some ⟨255⟩ := by
  obtain ⟨-, bare, back⟩ := reads_exactly "0XfF" 255
  have plain : "0XfF".toList[2]? ≠ some '+' := by decide
  have read : parse? "0XfF" = some ⟨255⟩ := by decide
  exact ⟨plain, ((bare plain).mp (by rw [read]; rfl)).1, read, back ⟨255⟩⟩

/-- A plus sign in front of the digits is read over. -/
theorem reads_signed : parse? "0x+1" = some ⟨1⟩ ∧ ∀ n, ¬Spells [] "0x+1".toList n := by
  refine ⟨by decide, ?_⟩
  rintro n ⟨mark, digits, -, spelled, -, isDigit, -⟩
  have same : ['+', '1'] = digits := (List.cons.inj (List.cons.inj spelled).2).2
  have sign : IsDigit '+' := isDigit '+' (same ▸ List.mem_cons_self)
  exact absurd sign (by unfold IsDigit; decide)

end LuaHost.Handle
