import LuaHost.Options
import LuaHost.Proofs.Blank
import LuaHost.Proofs.Options.Words

/-!
# The two ways of setting an option

A line sets an option with an equals sign or with a blank. Behind an equals sign only one word is
read, behind a blank all words are. So the two lines come to the same just if the value is one
word, or if the option does not take the first word of the value.
-/

namespace LuaHost.Options

open LuaHost.Text (isBlank isWordBreak Trimmed)

/-! ## Outcomes of a line -/

/-- A line is obeyed, and these are the options after it. -/
def Obeys (env : Environment) (o : Options) (line : List Char) (after : Options) : Prop :=
  ∀ errors k, obey env (o, errors) (line, k) = (after, errors)

/-- A line is reported and changes no option. -/
def Refuses (env : Environment) (o : Options) (line : List Char) : Prop :=
  ∀ errors k, ∃ e, obey env (o, errors) (line, k) = (o, errors ++ [⟨k, e⟩])

/-- Two lines are both refused, or both obeyed with the same options after them. -/
def SameOutcome (env : Environment) (o : Options) (line other : List Char) : Prop :=
  (Refuses env o line ∧ Refuses env o other) ∨
    ∃ after, Obeys env o line after ∧ Obeys env o other after

/-- A line that gives an option a value. -/
def Assigns (line name value : List Char) : Prop :=
  ∃ words, Line.ofChars line = .setting words ∧ assignment words = .ok (name, value)

section

variable {env : Environment} {o : Options} {line other name value value' : List Char}

/-- A line that assigns a value sets the option, or its error is reported with the line number. -/
theorem obey_of_assigns (h : Assigns line name value) (errors : List LineError) (k : Nat) :
    obey env (o, errors) (line, k) =
      match set env o (String.ofList name) (String.ofList value) with
      | .ok after => (after, errors)
      | .error e => (o, errors ++ [⟨k, e⟩]) := by
  obtain ⟨words, read, assigned⟩ := h
  have sets : assign env o words = set env o (String.ofList name) (String.ofList value) := by
    unfold assign
    rw [assigned]
    rfl
  cases taken : set env o (String.ofList name) (String.ofList value) <;>
    simp only [obey, read, sets, taken]

/-- A line is obeyed just if the option takes the value. -/
theorem obeys_iff (h : Assigns line name value) {after : Options} :
    Obeys env o line after ↔
      set env o (String.ofList name) (String.ofList value) = .ok after := by
  constructor
  · intro obeyed
    have outcome := obeyed [] 0
    rw [obey_of_assigns h] at outcome
    split at outcome
    · next result taken =>
      have same : result = after := congrArg Prod.fst outcome
      rw [taken, same]
    · exact absurd (congrArg Prod.snd outcome) (List.cons_ne_nil _ _)
  · intro taken errors k
    rw [obey_of_assigns h, taken]

/-- A line is refused just if the option does not take the value. -/
theorem refuses_iff (h : Assigns line name value) :
    Refuses env o line ↔
      ∃ e, set env o (String.ofList name) (String.ofList value) = .error e := by
  constructor
  · intro refused
    obtain ⟨e, outcome⟩ := refused [] 0
    rw [obey_of_assigns h] at outcome
    split at outcome
    · exact absurd (congrArg Prod.snd outcome).symm (List.cons_ne_nil _ _)
    · next e' taken => exact ⟨e', taken⟩
  · rintro ⟨e, refused⟩ errors k
    exact ⟨e, by rw [obey_of_assigns h, refused]⟩

private theorem sameOutcome_iff (h : Assigns line name value) (h' : Assigns other name value') :
    SameOutcome env o line other ↔
      ((∃ e, set env o (String.ofList name) (String.ofList value) = .error e) ∧
        ∃ e, set env o (String.ofList name) (String.ofList value') = .error e) ∨
      ∃ after, set env o (String.ofList name) (String.ofList value) = .ok after ∧
        set env o (String.ofList name) (String.ofList value') = .ok after := by
  simp only [SameOutcome, refuses_iff h, refuses_iff h', obeys_iff h, obeys_iff h']

/-- Lines that give the same value to the same option do the same. -/
theorem obey_eq_of_assigns (h : Assigns line name value) (h' : Assigns other name value)
    (state : Options × List LineError) (k : Nat) :
    obey env state (line, k) = obey env state (other, k) := by
  obtain ⟨o, errors⟩ := state
  rw [obey_of_assigns h, obey_of_assigns h']

/-- A file reads the same with lines exchanged that do the same. -/
theorem ofText_eq_of_obey_eq
    (same : ∀ state k, obey env state (line, k) = obey env state (other, k))
    {before after : List (List Char)} {s t : String}
    (hs : Text.lines s.toList = before ++ line :: after)
    (ht : Text.lines t.toList = before ++ other :: after) : ofText env s = ofText env t := by
  rw [ofText, ofText, hs, ht]
  simp only [List.zipIdx_append, List.zipIdx_cons, List.foldl_append, List.foldl_cons, same]

end

/-! ## Values with blanks -/

/-- No truth value has a blank. -/
theorem parseBool_of_blank {value : String} (h : ' ' ∈ value.toList) :
    parseBool value = .error (.notBoolean value) := by
  have word : ' ' ∈ (String.ofList (value.toList.map Char.toLower)).toList := by
    rw [String.toList_ofList]
    exact List.mem_map.mpr ⟨' ', h, rfl⟩
  have plain (words : List String) (no : ∀ w ∈ words, ' ' ∉ w.toList) :
      String.ofList (value.toList.map Char.toLower) ∉ words := fun mem => no _ mem word
  rw [parseBool, if_neg (plain _ (by decide)), if_neg (plain _ (by decide))]

private theorem decimal?_of_blank {digits : List Char} (h : ' ' ∈ digits) (acc : Nat) :
    decimal? acc digits = none := by
  induction digits generalizing acc with
  | nil => cases h
  | cons c cs ih =>
    rw [decimal?]
    split
    · next digit =>
      refine ih ((List.mem_cons.mp h).resolve_left ?_) _
      rintro rfl
      exact absurd digit (by decide)
    · rfl

/-- No debug level has a blank. -/
theorem parseDebug_of_blank {value : String} (h : ' ' ∈ value.toList) :
    parseDebug value = .error (.notDebugLevel value) := by
  cases chars : value.toList with
  | nil => exact absurd (chars ▸ h) List.not_mem_nil
  | cons c cs =>
    rw [chars] at h
    by_cases plus : c = '+'
    · subst plus
      have digits : ' ' ∈ cs := (List.mem_cons.mp h).resolve_left (by decide)
      simp [parseDebug, chars, decimal?_of_blank digits]
    · simp [parseDebug, chars, plus, decimal?_of_blank h]

/-- Only the home directory may have a blank. -/
theorem set_of_blank (env : Environment) (o : Options) {name value : String}
    (h : ' ' ∈ value.toList) (other : name ≠ "home") : ∃ e, set env o name value = .error e := by
  unfold set
  rw [parseBool_of_blank h, parseDebug_of_blank h, if_neg other]
  split
  · exact ⟨_, rfl⟩
  · split
    · exact ⟨_, rfl⟩
    · split <;> exact ⟨_, rfl⟩

/-- A home is set to where its tilde leads. -/
theorem set_home (env : Environment) (o : Options) {value : String} (h : value ≠ "") :
    set env o "home" value = .ok { o with home := env.expandTilde value } := by
  have nonempty : ¬value.isEmpty = true := fun e => h (String.isEmpty_iff.mp e)
  rw [set, if_neg (by decide), if_neg (by decide), if_pos rfl, if_neg nonempty]

/-- A longer text with the same start is another path. -/
theorem expandTilde_append_ne (env : Environment) {path more : List Char} (h : path ≠ [])
    (longer : more ≠ []) :
    env.expandTilde (String.ofList path) ≠ env.expandTilde (String.ofList (path ++ more)) := by
  intro same
  obtain ⟨c, cs, rfl⟩ := List.exists_cons_of_ne_nil h
  have chars := congrArg String.toList same
  by_cases tilde : c = '~'
  · subst tilde
    simp [Environment.expandTilde, longer] at chars
  · simp [Environment.expandTilde, longer, tilde] at chars

/-- An option that does not take a word does not take more words that start with it, and one that
does comes out different for them. -/
theorem set_longer (env : Environment) (o : Options) (name : String) {word : List Char}
    (nonempty : word ≠ []) (rest : List Char) :
    (∀ e, set env o name (String.ofList word) = .error e →
      ∃ e', set env o name (String.ofList (word ++ ' ' :: rest)) = .error e') ∧
    ∀ after, set env o name (String.ofList word) = .ok after →
      set env o name (String.ofList (word ++ ' ' :: rest)) ≠ .ok after := by
  have space : ' ' ∈ (String.ofList (word ++ ' ' :: rest)).toList := by
    rw [String.toList_ofList]
    exact List.mem_append_right _ List.mem_cons_self
  by_cases home : name = "home"
  · subst home
    have short : String.ofList word ≠ "" := fun e => nonempty (String.ofList_eq_empty_iff.mp e)
    have long : String.ofList (word ++ ' ' :: rest) ≠ "" := fun e =>
      List.append_ne_nil_of_left_ne_nil nonempty _ (String.ofList_eq_empty_iff.mp e)
    rw [set_home env o short, set_home env o long]
    refine ⟨nofun, fun after taken taken' => ?_⟩
    have paths := congrArg Options.home (Except.ok.inj (taken.trans taken'.symm))
    exact expandTilde_append_ne env nonempty (List.cons_ne_nil ' ' rest) paths
  · obtain ⟨e, refused⟩ := set_of_blank env o space home
    rw [refused]
    exact ⟨fun _ _ => ⟨e, rfl⟩, fun _ _ => nofun⟩

/-! ## The two forms -/

/-- The line that sets an option with an equals sign. -/
def equalsForm (name value : List Char) : List Char := "/set ".toList ++ (name ++ '=' :: value)

/-- The line that sets an option with a blank. -/
def blankForm (name value : List Char) : List Char := "/set ".toList ++ (name ++ ' ' :: value)

/-- The name of an option, as far as lines are concerned. -/
structure PlainName (name : List Char) : Prop where
  ne_nil : name ≠ []
  no_blank : ∀ c ∈ name, isBlank c = false
  no_equals : '=' ∉ name
  no_quote : '"' ∉ name

/-- A value that is written without quotes. -/
structure PlainValue (value : List Char) : Prop where
  ne_nil : value ≠ []
  trimmed : Trimmed value
  no_quote : '"' ∉ value

/-- The first word of a value. -/
def firstWord (value : List Char) : List Char := value.takeWhile (!isWordBreak ·)

/-- A test on the characters of a text that can be run. -/
theorem forall_of_any {stop : Char → Bool} {s : List Char} (h : s.any stop = false) :
    ∀ c ∈ s, stop c = false :=
  fun c hc => Bool.eq_false_iff.mpr (List.any_eq_false.mp h c hc)

private theorem isWordBreak_of_not_blank {c : Char} (h : isBlank c = false) :
    isWordBreak c = false :=
  Bool.eq_false_iff.mpr fun stop =>
    Bool.false_ne_true (h.symm.trans (Text.isBlank_of_isWordBreak stop))

/-- A plain value is one word, or its first word is followed by a blank and by more words. -/
theorem PlainValue.oneWord_or {value : List Char} (h : PlainValue value) :
    firstWord value ≠ [] ∧ (∀ c ∈ firstWord value, isWordBreak c = false) ∧
      ((∀ c ∈ value, isWordBreak c = false) ∧ firstWord value = value ∨
        ∃ c more, isWordBreak c = true ∧ value = firstWord value ++ c :: more ∧
          ∃ d ∈ more, isWordBreak d = false) := by
  obtain ⟨first, rest, rfl⟩ := List.exists_cons_of_ne_nil h.ne_nil
  have start : isWordBreak first = false := isWordBreak_of_not_blank (h.trimmed.head first rfl)
  have letters : ∀ c ∈ firstWord (first :: rest), isWordBreak c = false := by
    intro c hc
    simpa using List.mem_takeWhile_imp hc
  refine ⟨?_, letters, ?_⟩
  · rw [firstWord, List.takeWhile_cons_of_pos (by rw [start]; rfl)]
    exact List.cons_ne_nil _ _
  have whole := List.takeWhile_append_dropWhile (p := (!isWordBreak ·)) (l := first :: rest)
  have stop := List.head?_dropWhile_not (!isWordBreak ·) (first :: rest)
  rw [← firstWord] at whole
  cases behind : (first :: rest).dropWhile (!isWordBreak ·) with
  | nil =>
    rw [behind, List.append_nil] at whole
    exact .inl ⟨whole ▸ letters, whole⟩
  | cons c more =>
    rw [behind] at whole stop
    have hc : isWordBreak c = true := by simpa using stop
    -- The value does not end with a blank, so it does not end here.
    obtain ⟨d, last⟩ : ∃ d, (c :: more).getLast? = some d :=
      ⟨_, List.getLast?_eq_some_getLast (List.cons_ne_nil c more)⟩
    have letter : isWordBreak d = false := by
      refine isWordBreak_of_not_blank (h.trimmed.last d ?_)
      rw [← whole, List.getLast?_append, last, Option.some_or]
    refine .inr ⟨c, more, hc, whole.symm, d, ?_, letter⟩
    refine (List.mem_cons.mp (List.mem_of_getLast? last)).resolve_left ?_
    rintro rfl
    exact Bool.false_ne_true (letter.symm.trans hc)

section

variable {name value : List Char} (hn : PlainName name) (hv : PlainValue value)
include hn

/-- A plain name has no word break. -/
theorem PlainName.no_break : ∀ c ∈ name, isWordBreak c = false :=
  fun c hc => isWordBreak_of_not_blank (hn.no_blank c hc)

private theorem PlainName.no_cut : ∀ c ∈ name, (c == '=') = false :=
  fun c hc => beq_false_of_ne fun (same : c = '=') => hn.no_equals (same ▸ hc)

/-- An equals sign ties a word to the name. -/
theorem PlainName.equals {word : List Char} (letters : ∀ c ∈ word, isWordBreak c = false) :
    ∀ c ∈ name ++ '=' :: word, isWordBreak c = false :=
  List.forall_mem_append.mpr ⟨hn.no_break, List.forall_mem_cons.mpr ⟨by decide, letters⟩⟩

private theorem PlainName.equals_no_quote {word : List Char} (quote : '"' ∉ word) :
    '"' ∉ name ++ '=' :: word := by
  rw [List.mem_append, List.mem_cons]
  rintro (mem | same | mem)
  · exact hn.no_quote mem
  · exact absurd same (by decide)
  · exact quote mem

/-- A name and more words set the option to all of them. -/
theorem assignment_of_words (word : List Char) (others : List (List Char)) :
    assignment (name :: word :: others) = .ok (name, [' '].intercalate (word :: others)) := by
  have equals : Text.cut? (· == '=') name = none := Text.cut?_of_no_stop hn.no_cut
  have named : ¬name.isEmpty = true := fun e => hn.ne_nil (List.isEmpty_iff.mp e)
  simp only [assignment, equals, if_neg named]
  rfl

/-- A line of either form is a setting with the words behind the directive. -/
theorem ofChars_form (nonempty : value ≠ [])
    (last : ∀ d, value.getLast? = some d → isBlank d = false) (c : Char) :
    Line.ofChars ("/set ".toList ++ (name ++ c :: value)) =
      .setting (Words.ofChars (name ++ c :: value)) := by
  have behind : (name ++ c :: value).getLast? = value.getLast? := by
    obtain ⟨v, vs, rfl⟩ := List.exists_cons_of_ne_nil nonempty
    rw [List.getLast?_append, List.getLast?_cons_cons, List.getLast?_cons]
    rfl
  have arguments : Trimmed (name ++ c :: value) := by
    refine ⟨fun d hd => ?_, fun d hd => last d (behind ▸ hd)⟩
    rw [List.head?_append_of_ne_nil _ hn.ne_nil] at hd
    exact hn.no_blank d (List.mem_of_mem_head? hd)
  have line : Trimmed ("/set ".toList ++ (name ++ c :: value)) := by
    refine ⟨fun d hd => ?_, fun d hd => ?_⟩
    · obtain rfl : '/' = d := Option.some.inj hd
      decide
    · rw [List.getLast?_append_of_ne_nil _ (List.append_ne_nil_of_left_ne_nil hn.ne_nil _)] at hd
      exact arguments.last d hd
  have directive : Text.cut isWordBreak ("set".toList ++ ' ' :: (name ++ c :: value)) =
      ("set".toList, name ++ c :: value) := by
    rw [Text.cut, Text.cut?_append (forall_of_any rfl) rfl]
    rfl
  have chars : "/set ".toList ++ (name ++ c :: value) =
      '/' :: ("set".toList ++ ' ' :: (name ++ c :: value)) := rfl
  rw [Line.ofChars, line.trim_eq, chars]
  simp only [directive, if_true, arguments.trim_eq]

include hv

/-- An equals sign ties the first word of a value to the name, and the words behind it are those
of the value. -/
theorem exists_words :
    ∃ others, Words.ofChars value = firstWord value :: others ∧
      Words.ofChars (name ++ '=' :: value) = (name ++ '=' :: firstWord value) :: others ∧
      ((∀ c ∈ value, isWordBreak c = false) ↔ others = []) := by
  have tied {word : List Char} : name ++ '=' :: word ≠ [] :=
    List.append_ne_nil_of_left_ne_nil hn.ne_nil _
  obtain ⟨nonempty, letters, ⟨one, first⟩ | ⟨c, more, hc, whole, d, hd, letter⟩⟩ := hv.oneWord_or
  · refine ⟨[], ?_, ?_, iff_of_true one rfl⟩
    · rw [first, Words.ofChars_of_no_break hv.no_quote hv.ne_nil one]
    · rw [first]
      exact Words.ofChars_of_no_break (hn.equals_no_quote hv.no_quote) tied (hn.equals one)
  · have quotes := hv.no_quote
    rw [whole, List.mem_append, List.mem_cons, not_or, not_or] at quotes
    obtain ⟨quote, -, quote'⟩ := quotes
    refine ⟨Words.ofChars more, ?_, ?_, iff_of_false (fun one => ?_) (fun none_ => ?_)⟩
    · conv_lhs => rw [whole]
      rw [Words.ofChars_append_break quote quote' hc,
        Words.ofChars_of_no_break quote nonempty letters]
      rfl
    · have apart : name ++ '=' :: value = (name ++ '=' :: firstWord value) ++ c :: more := by
        conv_lhs => rw [whole]
        simp
      have quote := hn.equals_no_quote quote
      rw [apart, Words.ofChars_append_break quote quote' hc,
        Words.ofChars_of_no_break quote tied (hn.equals letters)]
      rfl
    · have stop := one c (whole ▸ List.mem_append_right _ List.mem_cons_self)
      exact Bool.false_ne_true (stop.symm.trans hc)
    · have blank := (Words.ofChars_eq_nil_iff quote').mp none_ d hd
      exact Bool.false_ne_true (letter.symm.trans blank)

private theorem assigns_equalsForm : Assigns (equalsForm name value) name (firstWord value) := by
  obtain ⟨others, -, words, -⟩ := exists_words hn hv
  refine ⟨_, ofChars_form hn hv.ne_nil hv.trimmed.last '=', ?_⟩
  have equals : Text.cut? (· == '=') (name ++ '=' :: firstWord value) =
      some (name, firstWord value) :=
    Text.cut?_append hn.no_cut rfl _
  have named : ¬name.isEmpty = true := fun e => hn.ne_nil (List.isEmpty_iff.mp e)
  rw [words, assignment]
  simp only [equals, if_neg named]

private theorem assigns_blankForm :
    Assigns (blankForm name value) name ([' '].intercalate (Words.ofChars value)) := by
  obtain ⟨others, words, -, -⟩ := exists_words hn hv
  refine ⟨_, ofChars_form hn hv.ne_nil hv.trimmed.last ' ', ?_⟩
  rw [Words.ofChars_append_break hn.no_quote hv.no_quote (by decide),
    Words.ofChars_of_no_break hn.no_quote hn.ne_nil hn.no_break, List.singleton_append, words,
    assignment_of_words hn]

/-- A value of one word is the same in both forms. -/
theorem assigns_blankForm_of_one (one : ∀ c ∈ value, isWordBreak c = false) :
    Assigns (blankForm name value) name (firstWord value) := by
  obtain ⟨others, words, -, alone⟩ := exists_words hn hv
  have assigned := assigns_blankForm hn hv
  rw [words, alone.mp one] at assigned
  simpa using assigned

/-- A value of more words is longer behind a blank, and has a blank. -/
theorem assigns_blankForm_of_more (more : ¬∀ c ∈ value, isWordBreak c = false) :
    ∃ rest, Assigns (blankForm name value) name (firstWord value ++ ' ' :: rest) := by
  obtain ⟨others, words, -, alone⟩ := exists_words hn hv
  obtain ⟨next, others, rfl⟩ := List.exists_cons_of_ne_nil fun none_ => more (alone.mpr none_)
  have assigned := assigns_blankForm hn hv
  rw [words, List.intercalate_cons_cons] at assigned
  exact ⟨_, by simpa using assigned⟩

end

/-- A line with an equals sign and one with a blank are both refused, or both obeyed with the same
outcome, just if the value is one word or the option does not take its first word. A value of one
word may be written either way in every file. -/
theorem forms_agree_iff {name value : List Char} (hn : PlainName name) (hv : PlainValue value)
    (env : Environment) (o : Options) :
    (SameOutcome env o (equalsForm name value) (blankForm name value) ↔
      (∀ c ∈ value, isWordBreak c = false) ∨
        ∃ e, set env o (String.ofList name) (String.ofList (firstWord value)) = .error e) ∧
    ((∀ c ∈ value, isWordBreak c = false) → ∀ (before after : List (List Char)) (s t : String),
      Text.lines s.toList = before ++ equalsForm name value :: after →
      Text.lines t.toList = before ++ blankForm name value :: after →
      ofText env s = ofText env t) := by
  have equals := assigns_equalsForm hn hv
  refine ⟨?_, fun one before after s t hs ht =>
    ofText_eq_of_obey_eq (obey_eq_of_assigns equals (assigns_blankForm_of_one hn hv one)) hs ht⟩
  by_cases one : ∀ c ∈ value, isWordBreak c = false
  · refine iff_of_true ((sameOutcome_iff equals (assigns_blankForm_of_one hn hv one)).mpr ?_)
      (.inl one)
    cases set env o (String.ofList name) (String.ofList (firstWord value)) with
    | ok after => exact .inr ⟨after, rfl, rfl⟩
    | error e => exact .inl ⟨⟨e, rfl⟩, e, rfl⟩
  · obtain ⟨rest, blank⟩ := assigns_blankForm_of_more hn hv one
    obtain ⟨refused, different⟩ := set_longer env o (String.ofList name) hv.oneWord_or.1 rest
    rw [sameOutcome_iff equals blank]
    constructor
    · rintro (⟨short, -⟩ | ⟨after, short, long⟩)
      · exact .inr short
      · exact absurd long (different after short)
    · rintro (one' | ⟨e, short⟩)
      · exact absurd one' one
      · exact .inl ⟨⟨e, short⟩, refused e short⟩

/-- A user with a home directory. -/
def user : Environment := ⟨"/u", none, "/u"⟩

/-- The name of the home option is plain. -/
theorem plainName_home : PlainName "home".toList :=
  ⟨by decide, forall_of_any rfl, by decide, by decide⟩

private theorem plainValue_of_ends {value : List Char} {first last : Char}
    (head : value.head? = some first) (back : value.getLast? = some last)
    (plain : isBlank first = false ∧ isBlank last = false ∧ '"' ∉ value) : PlainValue value where
  ne_nil := by
    rintro rfl
    cases head
  trimmed := ⟨fun _ h => Option.some.inj (head.symm.trans h) ▸ plain.1,
    fun _ h => Option.some.inj (back.symm.trans h) ▸ plain.2.1⟩
  no_quote := plain.2.2

/-- The case of a home with a tilde and an equals sign. -/
theorem forms_agree_iff_home :
    PlainName "home".toList ∧ PlainValue "~/x=y".toList ∧
      (∀ c ∈ "~/x=y".toList, isWordBreak c = false) ∧
      SameOutcome user (default user) "/set home=~/x=y".toList "/set home ~/x=y".toList ∧
      ofText user "# here\r\n/set home=~/x=y\n" = ofText user "# here\n/set home ~/x=y\r\n" := by
  have value : PlainValue "~/x=y".toList := plainValue_of_ends rfl rfl (by decide)
  have one : ∀ c ∈ "~/x=y".toList, isWordBreak c = false := forall_of_any rfl
  obtain ⟨agree, files⟩ := forms_agree_iff plainName_home value user (default user)
  refine ⟨plainName_home, value, one, agree.mpr (.inl one), ?_⟩
  exact files one ["# here".toList] [] _ _ (by decide) (by decide)

/-- Behind an equals sign the second word of a directory is lost. -/
theorem forms_differ :
    PlainName "home".toList ∧ PlainValue "a b".toList ∧
      Obeys user (default user) "/set home=a b".toList ⟨"a", false, false, 0⟩ ∧
      Obeys user (default user) "/set home a b".toList ⟨"a b", false, false, 0⟩ ∧
      ¬SameOutcome user (default user) "/set home=a b".toList "/set home a b".toList := by
  have value : PlainValue "a b".toList := plainValue_of_ends rfl rfl (by decide)
  have equals := assigns_equalsForm plainName_home value
  have blank := assigns_blankForm plainName_home value
  refine ⟨plainName_home, value, (obeys_iff equals).mpr rfl, (obeys_iff blank).mpr rfl,
    fun same => ?_⟩
  rcases (sameOutcome_iff equals blank).mp same with ⟨⟨e, refused⟩, -⟩ | ⟨after, short, long⟩
  · cases refused
  · cases short
    cases long

end LuaHost.Options
