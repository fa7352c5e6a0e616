import LuaHost.Proofs.Options.Assignment

/-!
# Lines that are reported

Whether a line is obeyed does not depend on the options, so a line is refused wherever it stands. A
refused line is reported once, under its number, and changes nothing: without the reported lines a
file gives the same options and has nothing to report.
-/

namespace LuaHost

namespace Text

variable {α β : Type*}

/-- Some of the lines of a text, counted from `first`: those whose numbers are not listed. -/
def unlisted (numbers : List Nat) (first : Nat) (lines : List α) : List α :=
  ((lines.zipIdx first).filter (·.2 ∉ numbers)).map Prod.fst

/-- A text without the lines of some numbers. A line goes with the characters that end it. -/
def withoutLines (numbers : List Nat) (s : List Char) : List Char :=
  let (whole, rest) := splitLines s
  (unlisted numbers 1 whole).flatMap (· ++ ['\n']) ++
    if whole.length + 1 ∈ numbers then [] else rest

private theorem unlisted_append (numbers : List Nat) (first : Nat) (a b : List α) :
    unlisted numbers first (a ++ b) =
      unlisted numbers first a ++ unlisted numbers (first + a.length) b := by
  simp [unlisted, List.zipIdx_append]

private theorem unlisted_map (numbers : List Nat) (first : Nat) (f : α → β) (lines : List α) :
    unlisted numbers first (lines.map f) = (unlisted numbers first lines).map f := by
  simp [unlisted, List.zipIdx_map, List.filter_map, Function.comp_def]

private theorem unlisted_subset {numbers : List Nat} {first : Nat} {lines : List α} {line : α}
    (h : line ∈ unlisted numbers first lines) : line ∈ lines := by
  obtain ⟨numbered, mem, rfl⟩ := List.mem_map.mp h
  exact List.fst_mem_of_mem_zipIdx (List.mem_of_mem_filter mem)

/-- The lines that are left stand as they stood. -/
theorem lines_withoutLines (numbers : List Nat) (s : List Char) :
    lines (withoutLines numbers s) = unlisted numbers 1 (lines s) := by
  obtain ⟨closed, open_⟩ := not_mem_splitLines s
  cases cut : splitLines s with
  | mk whole rest =>
  rw [cut] at closed open_
  have left : splitLines (withoutLines numbers s) =
      (unlisted numbers 1 whole, if whole.length + 1 ∈ numbers then [] else rest) := by
    rw [withoutLines, cut]
    apply splitLines_finished
    · intro line mem
      exact closed line (unlisted_subset mem)
    · split
      · exact List.not_mem_nil
      · exact open_
  rw [lines_of_splitLines left, lines_of_splitLines cut, unlisted_append, unlisted_map,
    List.length_map]
  congr 1
  by_cases listed : whole.length + 1 ∈ numbers <;> by_cases nothing : rest = [] <;>
    simp [unlisted, listed, nothing, Nat.add_comm 1]

end Text

namespace Options

variable {env : Environment}

/-! ## What a line does wherever it stands -/

private theorem map_eq_error_iff {α β : Type} {x : Except SettingError α} {f : α → β}
    {e : SettingError} :
    x.map f = .error e ↔ x = .error e := by
  cases x <;> simp [Except.map]

/-- An option that does not take a value takes it under no options. -/
theorem set_error {o : Options} {name value : String} {e : SettingError}
    (h : set env o name value = .error e) (o' : Options) : set env o' name value = .error e := by
  unfold set at h ⊢
  split_ifs at h ⊢
  · rwa [map_eq_error_iff] at h ⊢
  · rwa [map_eq_error_iff] at h ⊢
  · exact h
  · rwa [map_eq_error_iff] at h ⊢
  · exact h

private theorem assign_error {o : Options} {words : List (List Char)} {e : SettingError}
    (h : assign env o words = .error e) (o' : Options) : assign env o' words = .error e := by
  unfold assign at h ⊢
  cases read : assignment words with
  | error refused =>
    rw [read] at h
    exact h
  | ok assigned =>
    rw [read] at h
    exact set_error h o'

/-- Why a line is refused under any options, if it is. -/
def refusal? (env : Environment) (line : List Char) : Option SettingError :=
  match Line.ofChars line with
  | .skipped => none
  | .setting words =>
    match assign env (default env) words with
    | .ok _ => none
    | .error e => some e

/-- The options after a line. -/
def follow (env : Environment) (o : Options) (line : List Char) : Options :=
  (obey env (o, []) (line, 1)).1

/-- What is reported of a line with its number. -/
def report? (env : Environment) (numbered : List Char × Nat) : Option LineError :=
  (refusal? env numbered.1).map (LineError.mk numbered.2)

/-- A line changes the options and adds its report, if it has one. -/
theorem obey_eq (o : Options) (errors : List LineError) (numbered : List Char × Nat) :
    obey env (o, errors) numbered =
      (follow env o numbered.1, errors ++ (report? env numbered).toList) := by
  unfold follow obey report? refusal?
  cases Line.ofChars numbered.1 with
  | skipped => simp
  | setting words =>
    cases taken : assign env o words with
    | ok after =>
      cases first : assign env (default env) words with
      | ok _ => simp [taken, first]
      | error e => exact absurd (taken.symm.trans (assign_error first o)) nofun
    | error e => simp [taken, assign_error taken (default env)]

/-- A refused line leaves the options as they are. -/
theorem follow_of_refusal {line : List Char} {e : SettingError} (h : refusal? env line = some e)
    (o : Options) : follow env o line = o := by
  unfold refusal? at h
  unfold follow obey
  split at h
  · cases h
  · next words read =>
    split at h
    · cases h
    · next refused => simp [read, assign_error refused o]

/-- Every line is refused under any options, or obeyed under any options. -/
theorem refuses_or_obeys (env : Environment) (line : List Char) :
    (∃ e, refusal? env line = some e ∧ ∀ o, Refuses env o line) ∨
      refusal? env line = none ∧ ∀ o, ∃ after, Obeys env o line after := by
  cases refused : refusal? env line with
  | some e =>
    refine .inl ⟨e, rfl, fun o errors k => ⟨e, ?_⟩⟩
    rw [obey_eq, follow_of_refusal refused]
    simp [report?, refused]
  | none =>
    refine .inr ⟨rfl, fun o => ⟨follow env o line, fun errors k => ?_⟩⟩
    rw [obey_eq]
    simp [report?, refused]

/-! ## Files -/

private theorem foldl_obey (numbered : List (List Char × Nat)) (o : Options)
    (errors : List LineError) :
    numbered.foldl (obey env) (o, errors) =
      ((numbered.map Prod.fst).foldl (follow env) o,
        errors ++ numbered.filterMap (report? env)) := by
  induction numbered generalizing o errors with
  | nil => simp
  | cons first numbered ih =>
    rw [List.foldl_cons, obey_eq, ih]
    cases reported : report? env first <;> simp [reported]

/-- A file gives the options after all its lines, and the reports of its lines. -/
theorem ofText_eq (env : Environment) (text : String) :
    ofText env text =
      ((Text.lines text.toList).foldl (follow env) (default env),
        ((Text.lines text.toList).zipIdx 1).filterMap (report? env)) := by
  rw [ofText, foldl_obey, List.zipIdx_map_fst, List.nil_append]

/-- The numbers of the lines that are reported. -/
def reported (env : Environment) (text : String) : List Nat :=
  (ofText env text).2.map LineError.line

private theorem reported_eq (env : Environment) (text : String) :
    reported env text =
      (((Text.lines text.toList).zipIdx 1).filter (fun l => (refusal? env l.1).isSome)).map
        Prod.snd := by
  rw [reported, ofText_eq]
  induction (Text.lines text.toList).zipIdx 1 with
  | nil => rfl
  | cons first numbered ih =>
    cases refused : refusal? env first.1 <;> simp [report?, refused, ih]

/-- The reported lines are numbered in the order of the file. -/
theorem reported_sublist (env : Environment) (text : String) :
    (reported env text).Sublist (List.range' 1 (Text.lines text.toList).length) := by
  rw [reported_eq, ← List.zipIdx_map_snd 1 (Text.lines text.toList)]
  exact List.filter_sublist.map Prod.snd

/-- A line is reported just if it is refused. -/
theorem mem_reported_iff {text : String} {line : List Char} {k : Nat}
    (h : (line, k) ∈ (Text.lines text.toList).zipIdx 1) :
    k ∈ reported env text ↔ (refusal? env line).isSome = true := by
  rw [reported_eq]
  constructor
  · intro mem
    obtain ⟨⟨other, k'⟩, refused, same⟩ := List.mem_map.mp mem
    obtain rfl : k' = k := same
    obtain ⟨there, refused⟩ := List.mem_filter.mp refused
    -- Two lines with one number are one line.
    rw [List.mk_mem_zipIdx_iff_le_and_getElem?_sub] at there h
    obtain rfl : other = line := Option.some.inj (there.2.symm.trans h.2)
    exact refused
  · intro refused
    exact List.mem_map.mpr ⟨(line, k), List.mem_filter.mpr ⟨h, refused⟩, rfl⟩

/-- Without the reported lines the lines that are obeyed are left. -/
theorem unlisted_reported (env : Environment) (text : String) :
    Text.unlisted (reported env text) 1 (Text.lines text.toList) =
      (Text.lines text.toList).filter (fun line => (refusal? env line).isNone) := by
  have same : ((Text.lines text.toList).zipIdx 1).filter (·.2 ∉ reported env text) =
      ((Text.lines text.toList).zipIdx 1).filter (fun l => (refusal? env l.1).isNone) := by
    apply List.filter_congr
    rintro ⟨line, k⟩ mem
    rw [Bool.eq_iff_iff, decide_eq_true_iff, mem_reported_iff mem]
    cases refusal? env line <;> simp
  rw [Text.unlisted, same]
  conv_rhs => rw [← List.zipIdx_map_fst 1 (Text.lines text.toList), List.filter_map]
  rfl

/-- The lines that are reported are numbered upwards, each of them once. Every line of a file is
either reported, and then changes nothing under any options, or obeyed under any options. Without
the reported lines a file gives the same options, and nothing is reported. -/
theorem reported_lines_idle (env : Environment) (text : String) :
    (reported env text).Pairwise (· < ·) ∧
    (∀ k ∈ reported env text, 1 ≤ k ∧ k ≤ (Text.lines text.toList).length) ∧
    (∀ line k, (line, k) ∈ (Text.lines text.toList).zipIdx 1 →
      (k ∈ reported env text ∧ ∀ o, Refuses env o line) ∨
        (k ∉ reported env text ∧ ∀ o, ∃ after, Obeys env o line after)) ∧
    ofText env (String.ofList (Text.withoutLines (reported env text) text.toList)) =
      ((ofText env text).1, []) := by
  have numbers := reported_sublist env text
  refine ⟨List.Pairwise.sublist numbers List.pairwise_lt_range', ?_, ?_, ?_⟩
  · intro k mem
    have range := List.mem_range'_1.mp (numbers.subset mem)
    omega
  · intro line k mem
    rw [mem_reported_iff mem]
    rcases refuses_or_obeys env line with ⟨e, refused, always⟩ | ⟨obeyed, always⟩
    · exact .inl ⟨by simp [refused], always⟩
    · exact .inr ⟨by simp [obeyed], always⟩
  · rw [ofText_eq, ofText_eq, String.toList_ofList, Text.lines_withoutLines, unlisted_reported]
    congr 1
    · -- A refused line could as well not be followed.
      rw [List.foldl_filter]
      congr 1
      funext o line
      cases refused : refusal? env line with
      | none => rfl
      | some e => exact (follow_of_refusal refused o).symm
    · apply List.filterMap_eq_nil_iff.mpr
      rintro ⟨line, k⟩ mem
      have kept := (List.mem_filter.mp (List.fst_mem_of_mem_zipIdx mem)).2
      simpa [report?] using kept

/-- A file with line ends of both kinds and two lines that cannot be obeyed. -/
def faulty : String := "# here\r\n/set debug=9\r\n/set home=a\n/bind x\n/set\n /set debug 2"

/-- The case of a file with two lines that cannot be obeyed. -/
theorem reported_lines_idle_faulty :
    reported user faulty = [2, 5] ∧ [2, 5].Pairwise (· < ·) ∧
      5 ≤ (Text.lines faulty.toList).length ∧
      ("/set debug=9".toList, 2) ∈ (Text.lines faulty.toList).zipIdx 1 ∧
      (∀ o, Refuses user o "/set debug=9".toList) ∧
      Text.withoutLines [2, 5] faulty.toList =
        "# here\r\n/set home=a\n/bind x\n /set debug 2".toList ∧
      ofText user "# here\r\n/set home=a\n/bind x\n /set debug 2" =
        (⟨"a", false, false, 2⟩, []) := by
  obtain ⟨upwards, within, apart, without⟩ := reported_lines_idle user faulty
  have numbers : reported user faulty = [2, 5] := by decide
  have second : ("/set debug=9".toList, 2) ∈ (Text.lines faulty.toList).zipIdx 1 := by decide
  have left : Text.withoutLines [2, 5] faulty.toList =
      "# here\r\n/set home=a\n/bind x\n /set debug 2".toList := by decide
  rw [numbers] at upwards within apart without
  refine ⟨numbers, upwards, (within 5 (by decide)).2, second, ?_, left, ?_⟩
  · rcases apart _ _ second with ⟨-, refused⟩ | ⟨unlisted, -⟩
    · exact refused
    · exact absurd (by decide) unlisted
  · rw [left, String.ofList_toList] at without
    rw [without]
    decide

end Options

end LuaHost
