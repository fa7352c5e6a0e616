import LuaHost.Proofs.Number.Decimal

/-!
# The fewest digits that read back

The shortest decimal that reads back as a number is the one of fourteen digits just if that one
reads back at all, which is to say that any decimal of so few digits does. The grid of fourteen
digits is coarser than that of the numbers, so no more than one of its decimals is read as a number.
-/

namespace LuaHost.Decimal

open Binary64 (Nearest Rounds unit unit_pos)

/-! ### The search -/

/-- A multiple of a power of ten lies between the bounds. -/
theorem between_iff (closed : Bool) (low high : Nat) {den : Nat} (h : 0 < den) (c : Nat)
    (scale : Int) :
    between closed low high den c scale = true ↔
      if closed then (low : ℚ) / den ≤ c * 10 ^ scale ∧ (c : ℚ) * 10 ^ scale ≤ high / den
      else (low : ℚ) / den < c * 10 ^ scale ∧ (c : ℚ) * 10 ^ scale < high / den := by
  obtain ⟨pos, shifted⟩ := shift_spec c Nat.one_pos scale
  have shown : between closed low high den c scale =
      (let p := shift c 1 scale
      if closed then low * p.2 ≤ p.1 * den && p.1 * den ≤ high * p.2
      else low * p.2 < p.1 * den && p.1 * den < high * p.2) := by
    cases scale <;> simp [between, shift]
  rw [shown]
  generalize shift c 1 scale = parts at pos shifted ⊢
  obtain ⟨n, d⟩ := parts
  rw [Nat.cast_one, div_one] at shifted
  have hd : (0 : ℚ) < d := by exact_mod_cast pos
  have hden : (0 : ℚ) < den := by exact_mod_cast h
  rw [← shifted]
  cases closed with
  | false =>
    simp only [Bool.false_eq_true, if_false, Bool.and_eq_true, decide_eq_true_eq,
      div_lt_div_iff₀ hden hd, div_lt_div_iff₀ hd hden]
    norm_cast
  | true =>
    simp only [if_true, Bool.and_eq_true, decide_eq_true_eq, div_le_div_iff₀ hden hd,
      div_le_div_iff₀ hd hden]
    norm_cast

/-- The decimal that is tried first on a grid. -/
def candidate (mid den : Nat) (scale : Int) : Nat :=
  let (n, d) := shift mid den (-scale)
  if 2 * (n % d) ≤ d then n / d else n / d + 1

/-- It is the nearest one where that is nearer than half-way to the next. -/
theorem candidate_eq {mid den : Nat} (h : 0 < den) {scale : Int} {r : Nat}
    (near : |(mid : ℚ) / den / 10 ^ scale - r| < 1 / 2) : candidate mid den scale = r := by
  obtain ⟨pos, shifted⟩ := shift_spec mid h (-scale)
  rw [zpow_neg, ← div_eq_mul_inv] at shifted
  rw [← shifted] at near
  unfold candidate
  generalize shift mid den (-scale) = parts at pos near ⊢
  obtain ⟨n, d⟩ := parts
  have hd : (0 : ℚ) < d := by exact_mod_cast pos
  -- Half-way between two integers nothing is near enough, so it does not matter which is tried.
  have no_tie : 2 * (n % d) ≠ d := by
    intro tie
    have half : ((n % d : Nat) : ℚ) / d = 1 / 2 := by
      rw [div_eq_iff hd.ne']
      have : (2 : ℚ) * (n % d : Nat) = d := by exact_mod_cast tie
      linarith
    simp only [Binary64.div_eq_quotient_add n pos, half] at near
    obtain ⟨low, high⟩ := abs_lt.mp near
    have low' : r < n / d + 1 := by
      have : (r : ℚ) < (n / d : Nat) + 1 := by linarith
      exact_mod_cast this
    have high' : n / d < r := by
      have : ((n / d : Nat) : ℚ) < r := by linarith
      exact_mod_cast this
    omega
  have rounded := (Binary64.roundDiv_eq_iff pos).mpr (Or.inl near)
  rw [← rounded, Binary64.roundDiv]
  dsimp only
  by_cases down : 2 * (n % d) < d
  · rw [if_pos down.le, if_pos down]
  · rw [if_neg (by omega), if_neg down, if_pos (by omega)]

section

variable (closed : Bool) (low mid high den : Nat) (lead : Int)

private theorem shortestFrom_succ (fuel places : Nat) :
    ∃ far, shortestFrom closed low mid high den lead (fuel + 1) places =
      let scale := lead - (places - 1 : Nat)
      if between closed low high den (candidate mid den scale) scale then
        ⟨candidate mid den scale, scale⟩
      else if between closed low high den far scale then ⟨far, scale⟩
      else shortestFrom closed low mid high den lead fuel (places + 1) := by
  by_cases down : 2 * ((shift mid den (-(lead - (places - 1 : Nat)))).1 %
      (shift mid den (-(lead - (places - 1 : Nat)))).2) ≤
      (shift mid den (-(lead - (places - 1 : Nat)))).2
  · exact ⟨_, by simp only [shortestFrom, candidate, down, if_true]; rfl⟩
  · exact ⟨_, by simp only [shortestFrom, candidate, down, if_false]; rfl⟩

variable {closed low mid high den lead} {fuel places : Nat} {s : Scaled}

/-- A search ends with a decimal between the bounds, or with nothing. -/
theorem between_of_shortestFrom (h : shortestFrom closed low mid high den lead fuel places = s) :
    s.digits = 0 ∨ between closed low high den s.digits s.scale = true := by
  induction fuel generalizing places with
  | zero =>
    subst h
    exact .inl rfl
  | succ fuel ih =>
    obtain ⟨far, step⟩ := shortestFrom_succ closed low mid high den lead fuel places
    rw [step] at h
    dsimp only at h
    split at h
    · next found => exact .inr (h ▸ found)
    · split at h
      · next found => exact .inr (h ▸ found)
      · exact ih h

/-- A search stops at the latest where the decimal tried first lies between the bounds. -/
theorem shortestFrom_stops (h : shortestFrom closed low mid high den lead fuel places = s)
    {p : Nat} (start : places ≤ p) (stop : p < places + fuel)
    (found : between closed low high den (candidate mid den (lead - (p - 1 : Nat)))
      (lead - (p - 1 : Nat)) = true) :
    ∃ q ≤ p, s.scale = lead - (q - 1 : Nat) ∧
      between closed low high den s.digits s.scale = true := by
  induction fuel generalizing places with
  | zero => omega
  | succ fuel ih =>
    obtain ⟨far, step⟩ := shortestFrom_succ closed low mid high den lead fuel places
    rw [step] at h
    dsimp only at h
    split at h
    · next here =>
      subst h
      exact ⟨places, start, rfl, here⟩
    · next missed =>
      split at h
      · next here =>
        subst h
        exact ⟨places, start, rfl, here⟩
      · have later : places ≠ p := by
          rintro rfl
          exact missed found
        exact ih h (by omega) (by omega)

end

/-! ### The shortest decimal of a number -/

/-- A quarter of the distance of the numbers around one, as a ratio. -/
def quarter (x : Binary64) : Nat × Nat :=
  match x.exponent - 2 with
  | .ofNat e => (Nat.pow 2 e, 1)
  | .negSucc e => (1, Nat.pow 2 (e + 1))

private theorem quarter_spec (x : Binary64) :
    0 < (quarter x).1 ∧ 0 < (quarter x).2 ∧
      ((quarter x).1 : ℚ) / (quarter x).2 = unit x.binade / 4 := by
  have power : (2 : ℚ) ^ (x.exponent - 2) = unit x.binade / 4 := by
    rw [unit, ← x.exponent_eq, zpow_sub₀ (by norm_num)]
    norm_num
  rw [← power]
  unfold quarter
  cases x.exponent - 2 with
  | ofNat e => exact ⟨Nat.pow_pos Nat.two_pos, Nat.one_pos, by simp⟩
  | negSucc e => exact ⟨Nat.one_pos, Nat.pow_pos Nat.two_pos, by simp [zpow_negSucc]⟩

/-- The quarters of that distance between a number and half-way to the one below. -/
def quarters (x : Binary64) : Nat :=
  if x.mantissa = Nat.pow 2 52 && x.biasedExponent > 1 then 1 else 2

private theorem quarters_le (x : Binary64) : quarters x ≤ 2 := by
  unfold quarters
  split <;> decide

private theorem reach_eq_quarters (x : Binary64) : x.reach = (quarters x : ℚ) / 4 := by
  have normal : x.biasedExponent > 1 ↔ x.binade ≠ 0 := by
    unfold Binary64.binade
    omega
  rw [quarters, Binary64.reach]
  by_cases smallest : x.mantissa = 2 ^ 52 ∧ x.binade ≠ 0
  · rw [if_pos smallest, if_pos (by simpa [normal] using smallest)]
    norm_num
  · rw [if_neg smallest, if_neg (by simpa [normal] using smallest)]
    norm_num

/-- The search for a number starts from the number and goes on up to the ends of its interval. -/
theorem shortest_eq {x : Binary64} (pos : 0 < x.mantissa) :
    ∃ low mid high den : Nat, 0 < mid ∧ 0 < den ∧ (mid : ℚ) / den = x.size ∧
      (∀ c scale, between (x.mantissa % 2 = 0) low high den c scale = true ↔
        x.Rounds (c * 10 ^ scale)) ∧
      shortest x = stripZeros 20 (shortestFrom (x.mantissa % 2 = 0) low mid high den
        (leading mid den) 18 1) := by
  obtain ⟨hunit, hden, ratio⟩ := quarter_spec x
  have scaled (n : Nat) : ((n * (quarter x).1 : Nat) : ℚ) / (quarter x).2 =
      n / 4 * unit x.binade := by
    rw [Nat.cast_mul, mul_div_assoc, ratio]
    ring
  have few := quarters_le x
  refine ⟨(4 * x.mantissa - quarters x) * (quarter x).1, 4 * x.mantissa * (quarter x).1,
    (4 * x.mantissa + 2) * (quarter x).1, (quarter x).2, by positivity, hden, ?_, ?_, rfl⟩
  · rw [scaled, Binary64.size_eq]
    push_cast
    ring
  · intro c scale
    have low : (((4 * x.mantissa - quarters x) * (quarter x).1 : Nat) : ℚ) / (quarter x).2 =
        x.lowEnd := by
      rw [scaled, Nat.cast_sub (by omega), Binary64.lowEnd, reach_eq_quarters]
      push_cast
      ring
    have high : (((4 * x.mantissa + 2) * (quarter x).1 : Nat) : ℚ) / (quarter x).2 = x.highEnd := by
      rw [scaled, Binary64.highEnd]
      push_cast
      ring
    rw [between_iff _ _ _ hden, low, high, Rounds]
    simp

/-! ### Fourteen digits -/

section

variable {x : Binary64}

/-- A normal number is not zero. -/
theorem ratio_pos (normal : x.biasedExponent ≠ 0) : 0 < x.ratio.1 := by
  have least := Binary64.le_mantissa normal
  have size : 0 < x.size := by
    rw [Binary64.size_eq]
    have := unit_pos x.binade
    have : (0 : ℚ) < x.mantissa := by exact_mod_cast (by positivity : 0 < 2 ^ 52).trans_le least
    positivity
  rw [Binary64.size_eq_ratio] at size
  have pos : (0 : ℚ) < x.ratio.2 := by exact_mod_cast x.ratio_pos
  have num := (div_pos_iff_of_pos_right pos).mp size
  exact_mod_cast num

/-- The leading digit of a normal number is that of its ratio. -/
theorem inDecade_size (normal : x.biasedExponent ≠ 0) :
    InDecade x.size (leading x.ratio.1 x.ratio.2) := by
  rw [Binary64.size_eq_ratio]
  exact leading_spec (ratio_pos normal) x.ratio_pos

/-- The scale of the decimals of fourteen digits around a number. -/
def coarse (x : Binary64) : Int := leading x.ratio.1 x.ratio.2 - 13

/-- The decimals of fourteen digits lie farther apart than the numbers. -/
theorem unit_lt (normal : x.biasedExponent ≠ 0) : unit x.binade < 10 ^ coarse x := by
  have decade := inDecade_size normal
  rw [Binary64.size_eq] at decade
  have pos := unit_pos x.binade
  have least : (2 : ℚ) ^ 52 ≤ x.mantissa := by exact_mod_cast Binary64.le_mantissa normal
  have grid : (10 : ℚ) ^ (leading x.ratio.1 x.ratio.2 + 1) = 10 ^ 14 * 10 ^ coarse x := by
    rw [pow_mul_zpow, coarse]
    congr 1
    omega
  have high := decade.2
  rw [grid] at high
  have : 2 ^ 52 * unit x.binade < 10 ^ 14 * 10 ^ coarse x := lt_of_le_of_lt (by gcongr) high
  linarith

/-- A decimal of the grid that reads back is the nearest one. -/
theorem nearest_of_rounds (normal : x.biasedExponent ≠ 0) {c : Nat}
    (reads : x.Rounds (c * 10 ^ coarse x)) : |x.size / 10 ^ coarse x - c| < 1 / 2 := by
  have power : (0 : ℚ) < 10 ^ coarse x := by positivity
  have close := reads.close
  have gap := unit_lt normal
  have scaled : x.size / 10 ^ coarse x - c = -((c * 10 ^ coarse x - x.size) / 10 ^ coarse x) := by
    field_simp
    ring
  rw [scaled, abs_neg, abs_div, abs_of_pos power, div_lt_iff₀ power]
  linarith

private theorem eq_of_rounds (normal : x.biasedExponent ≠ 0) {r c : Nat}
    (near : Nearest r (x.size / 10 ^ coarse x)) (reads : x.Rounds (c * 10 ^ coarse x)) : r = c :=
  near.unique (.inl (nearest_of_rounds normal reads))

/-- The decimal of fourteen digits that is nearest to a number, zeros at its end left out. -/
theorem rounded_fourteen (normal : x.biasedExponent ≠ 0) :
    (rounded 14 x.ratio.1 x.ratio.2).Stripped ∧
      ∃ r : Nat, Nearest r (x.size / 10 ^ coarse x) ∧ 10 ^ 13 ≤ r ∧ r ≤ 10 ^ 14 ∧
        (rounded 14 x.ratio.1 x.ratio.2).value = r * 10 ^ coarse x := by
  have spec := rounded_spec (by decide : 0 < 14) (ratio_pos normal) x.ratio_pos
  rw [← Binary64.size_eq_ratio] at spec
  exact spec

/-- What the search for the shortest decimal goes through. -/
theorem exists_search (normal : x.biasedExponent ≠ 0) :
    ∃ low mid high den : Nat, 0 < den ∧ (mid : ℚ) / den = x.size ∧
      (∀ c scale, between (x.mantissa % 2 = 0) low high den c scale = true ↔
        x.Rounds (c * 10 ^ scale)) ∧
      shortest x = stripZeros 20 (shortestFrom (x.mantissa % 2 = 0) low mid high den
        (coarse x + 13) 18 1) := by
  have pos : 0 < x.mantissa := lt_of_lt_of_le (by norm_num) (Binary64.le_mantissa normal)
  obtain ⟨low, mid, high, den, hmid, hden, size, bounds, search⟩ := shortest_eq pos
  refine ⟨low, mid, high, den, hden, size, bounds, ?_⟩
  have here := leading_spec hmid hden
  rw [size] at here
  rw [search, here.unique (inDecade_size normal), coarse, sub_add_cancel]

/-- The shortest decimal reads back, if there is one. -/
theorem rounds_shortest (normal : x.biasedExponent ≠ 0) (pos : (shortest x).value ≠ 0) :
    x.Rounds (shortest x).value := by
  obtain ⟨low, mid, high, den, -, -, bounds, search⟩ := exists_search normal
  rw [search, value_stripZeros] at pos ⊢
  generalize hs : shortestFrom (x.mantissa % 2 = 0) low mid high den (coarse x + 13) 18 1 = s at *
  rcases between_of_shortestFrom hs with nothing | found
  · rw [Scaled.value, nothing, Nat.cast_zero, zero_mul] at pos
    exact absurd rfl pos
  · exact (bounds _ _).mp found

/-- A decimal of fourteen digits that reads back is the shortest one, up to zeros at its end. -/
theorem shortest_of_rounds (normal : x.biasedExponent ≠ 0) {r : Nat} (hr : 0 < r)
    (few : r ≤ 10 ^ 14) (reads : x.Rounds (r * 10 ^ coarse x)) :
    (shortest x).Stripped ∧ (shortest x).value = r * 10 ^ coarse x := by
  obtain ⟨low, mid, high, den, hden, size, bounds, search⟩ := exists_search normal
  generalize hs : shortestFrom (x.mantissa % 2 = 0) low mid high den (coarse x + 13) 18 1 = s
    at search
  have near := nearest_of_rounds normal reads
  have first : candidate mid den (coarse x) = r := candidate_eq hden (by rwa [size])
  have fourteenth : coarse x + 13 - (14 - 1 : Nat) = coarse x := by omega
  obtain ⟨q, early, scale, found⟩ := shortestFrom_stops hs (p := 14) (by decide) (by decide)
    (by rw [fourteenth, first]; exact (bounds _ _).mpr reads)
  -- On the grid of fourteen digits what was found can only be the decimal that reads back.
  obtain ⟨e, he⟩ : ∃ e : Nat, s.scale = e + coarse x := ⟨13 - (q - 1), by omega⟩
  have on_grid : s.value = (s.digits * 10 ^ e : Nat) * 10 ^ coarse x := by
    rw [Scaled.value, he, ← pow_mul_zpow]
    push_cast
    ring
  have reads' := (bounds _ _).mp found
  rw [← Scaled.value, on_grid] at reads'
  have same : r = s.digits * 10 ^ e := eq_of_rounds normal (.inl near) reads'
  have digits : 0 < s.digits := Nat.pos_of_mul_pos_right (same ▸ hr)
  have bounded : s.digits ≤ 10 ^ 20 := by
    have less := Nat.le_mul_of_pos_right s.digits (Nat.pow_pos (by decide : 0 < 10) (n := e))
    omega
  rw [search]
  refine ⟨stripped_stripZeros digits bounded, ?_⟩
  rw [value_stripZeros, on_grid, same]

/-- The shortest decimal is the one of fourteen digits just if that one reads back. -/
theorem shortest_eq_rounded_iff (normal : x.biasedExponent ≠ 0) :
    shortest x = rounded 14 x.ratio.1 x.ratio.2 ↔
      x.Rounds (rounded 14 x.ratio.1 x.ratio.2).value := by
  obtain ⟨stripped, r, -, low, high, value⟩ := rounded_fourteen normal
  have pos : 0 < r := (by norm_num : 0 < 10 ^ 13).trans_le low
  constructor
  · intro same
    rw [← same]
    apply rounds_shortest normal
    rw [same, value]
    have : (0 : ℚ) < r := by exact_mod_cast pos
    positivity
  · intro reads
    rw [value] at reads
    obtain ⟨stripped', value'⟩ := shortest_of_rounds normal pos high reads
    exact stripped'.eq_of_value stripped (value'.trans value.symm)

/-- A decimal of no more than fourteen digits on a finer grid lies below the decade of a number,
whose start is on the grid of fourteen digits. -/
theorem start_bounds (normal : x.biasedExponent ≠ 0) {c : Nat} {p : Int} (few : c < 10 ^ 14)
    (fine : p < coarse x) :
    (c : ℚ) * 10 ^ p ≤ (10 ^ 13 : Nat) * 10 ^ coarse x ∧
      ((10 ^ 13 : Nat) : ℚ) * 10 ^ coarse x ≤ x.size := by
  have start : ((10 ^ 13 : Nat) : ℚ) * 10 ^ coarse x = 10 ^ leading x.ratio.1 x.ratio.2 := by
    rw [Nat.cast_pow, Nat.cast_ofNat, pow_mul_zpow, coarse]
    congr 1
    omega
  rw [start]
  refine ⟨?_, (inDecade_size normal).1⟩
  calc (c : ℚ) * 10 ^ p
      ≤ 10 ^ 14 * 10 ^ p := by
        gcongr
        exact_mod_cast few.le
    _ = 10 ^ ((14 : Nat) + p) := pow_mul_zpow 14 p
    _ ≤ 10 ^ leading x.ratio.1 x.ratio.2 :=
        zpow_le_zpow_right₀ (by norm_num) (by unfold coarse at fine; omega)

/-- Some decimal of no more than fourteen digits reads back just if the nearest one does. -/
theorem exists_short_iff (normal : x.biasedExponent ≠ 0) :
    (∃ (c : Nat) (p : Int), c < 10 ^ 14 ∧ x.Rounds (c * 10 ^ p)) ↔
      x.Rounds (rounded 14 x.ratio.1 x.ratio.2).value := by
  obtain ⟨-, r, near, -, high, value⟩ := rounded_fourteen normal
  rw [value]
  constructor
  · rintro ⟨c, p, few, reads⟩
    by_cases fine : p < coarse x
    · obtain ⟨below, start⟩ := start_bounds normal few fine
      have reads_start := reads.between below start
      rwa [eq_of_rounds normal near reads_start]
    · obtain ⟨e, rfl⟩ : ∃ e : Nat, p = e + coarse x := ⟨(p - coarse x).toNat, by omega⟩
      have on_grid : (c : ℚ) * 10 ^ (e + coarse x) = (c * 10 ^ e : Nat) * 10 ^ coarse x := by
        rw [← pow_mul_zpow]
        push_cast
        ring
      rw [on_grid] at reads
      rwa [eq_of_rounds normal near reads]
  · intro reads
    rcases Nat.lt_or_eq_of_le high with less | rfl
    · exact ⟨r, coarse x, less, reads⟩
    · refine ⟨10 ^ 13, coarse x + 1, by norm_num, ?_⟩
      have same : ((10 ^ 13 : Nat) : ℚ) * 10 ^ (coarse x + 1) =
          (10 ^ 14 : Nat) * 10 ^ coarse x := by
        rw [zpow_add_one₀ (by norm_num)]
        push_cast
        ring
      rwa [same]

/-! ### Reading a decimal -/

/-- What is rounded to a number is within the range in which decimals are looked at closely. -/
theorem range_of_rounds {v : ℚ} (finite : x.isFinite = true) (normal : x.biasedExponent ≠ 0)
    (reads : x.Rounds v) : (10 : ℚ) ^ (-400 : Int) < v ∧ v < 10 ^ (401 : Int) := by
  obtain ⟨low, high⟩ := abs_le.mp reads.close
  have least : (2 : ℚ) ^ 52 ≤ x.mantissa := by exact_mod_cast Binary64.le_mantissa normal
  have most : (x.mantissa : ℚ) < 2 ^ 53 := by exact_mod_cast x.mantissa_lt
  have pos := unit_pos x.binade
  have fine : (2 : ℚ) ^ (-1074 : Int) ≤ unit x.binade :=
    zpow_le_zpow_right₀ (by norm_num) (by omega)
  have wide : unit x.binade ≤ 2 ^ (971 : Int) := by
    have bits := Binary64.magnitude_lt finite
    rw [Binary64.magnitude_eq] at bits
    have := Binary64.le_mantissa normal
    exact zpow_le_zpow_right₀ (by norm_num) (by omega)
  rw [Binary64.size_eq] at low high
  constructor
  · have small : (10 : ℚ) ^ (-400 : Int) < 2 ^ (-1074 : Int) := by
      rw [zpow_neg, zpow_neg, zpow_ofNat, zpow_ofNat]
      refine inv_strictAnti₀ (by positivity) ?_
      exact_mod_cast (by decide +kernel : 2 ^ 1074 < 10 ^ 400)
    have : 2 ^ 52 * unit x.binade ≤ x.mantissa * unit x.binade := by gcongr
    linarith
  · have large : 2 ^ 54 * (2 : ℚ) ^ (971 : Int) < 10 ^ (401 : Int) := by
      rw [zpow_ofNat, zpow_ofNat]
      exact_mod_cast (by decide +kernel : 2 ^ 54 * 2 ^ 971 < 10 ^ 401)
    have : x.mantissa * unit x.binade ≤ 2 ^ 53 * unit x.binade := by gcongr
    generalize (2 : ℚ) ^ (971 : Int) = top at wide large
    generalize (10 : ℚ) ^ (401 : Int) = far at large ⊢
    linarith

private theorem le_of_large {c : Nat} {p : Int} (pos : 0 < c) (large : 400 < p) :
    (10 : ℚ) ^ (401 : Int) ≤ c * 10 ^ p := by
  have one : (1 : ℚ) ≤ c := by exact_mod_cast pos
  exact (zpow_le_zpow_right₀ (by norm_num) (by omega)).trans
    (le_mul_of_one_le_left (by positivity) one)

private theorem le_of_tiny {c : Nat} {p : Int} (tiny : p < -400 - (c.log2 : Int)) :
    (c : ℚ) * 10 ^ p ≤ 10 ^ (-400 : Int) :=
  calc (c : ℚ) * 10 ^ p
      ≤ 10 ^ ((c.log2 : Int) + 1) * 10 ^ (-401 - (c.log2 : Int)) := by
        gcongr
        · exact (Binary64.lt_log2 c).le.trans
            (zpow_le_zpow_left₀ (by omega) (by norm_num) (by norm_num))
        · norm_num
        · omega
    _ = 10 ^ (-400 : Int) := by
        rw [← zpow_add₀ (by norm_num)]
        congr 1
        ring

private theorem zero_ne (finite : x.isFinite = true) (normal : x.biasedExponent ≠ 0) :
    Binary64.zero ≠ .withSign false x.magnitude := by
  intro same
  have above := Binary64.magnitude_lt finite
  have below := Binary64.le_mantissa normal
  have none := Binary64.withSign_inj (m := 0) (by norm_num) (by omega) same
  rw [Binary64.magnitude_eq] at none
  omega

private theorem infinity_ne (finite : x.isFinite = true) :
    Binary64.infinity false ≠ .withSign false x.magnitude := by
  intro same
  have above := Binary64.magnitude_lt finite
  have all := Binary64.withSign_inj (by norm_num) (by omega) same
  rw [Nat.pow_eq] at all
  omega

/-- Reading a decimal gives the magnitude of a number just if the decimal is rounded to it. -/
theorem ofDecimal_eq_iff (finite : x.isFinite = true) (normal : x.biasedExponent ≠ 0) (c : Nat)
    (p : Int) :
    Binary64.ofDecimal c p = .withSign false x.magnitude ↔ x.Rounds (c * 10 ^ p) := by
  have range {v : ℚ} := range_of_rounds (v := v) finite normal
  unfold Binary64.ofDecimal
  split
  · next nothing =>
    refine iff_of_false (zero_ne finite normal) fun reads => ?_
    rw [nothing, Nat.cast_zero, zero_mul] at reads
    exact absurd (range reads).1 (not_lt.mpr (by positivity))
  · next something =>
    have pos := Nat.pos_of_ne_zero something
    split
    · next large =>
      exact iff_of_false (infinity_ne finite) fun reads =>
        absurd (range reads).2 (not_lt.mpr (le_of_large pos large))
    · split
      · next tiny =>
        exact iff_of_false (zero_ne finite normal) fun reads =>
          absurd (range reads).1 (not_lt.mpr (le_of_tiny tiny))
      · cases p with
        | ofNat e =>
          have read := Binary64.ofRatio_eq_iff finite
            (Nat.mul_pos pos (Nat.pow_pos (by decide) : 0 < Nat.pow 10 e)) Nat.one_pos
          simpa using read
        | negSucc e =>
          have read := Binary64.ofRatio_eq_iff finite pos
            (Nat.pow_pos (by decide) : 0 < Nat.pow 10 (e + 1))
          simpa [zpow_negSucc, div_eq_mul_inv] using read

end

end LuaHost.Decimal
