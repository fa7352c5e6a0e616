import LuaHost.CommandLine
import Mathlib.Data.List.Induction

/-!
# Command lines written and read

A command line can be written in many ways: flags without a value stand alone or lead an argument
that they share, a value is attached to its flag or given as the next argument, and the flags come
in any order. Reading gives the same command line for each of them.
-/

namespace LuaHost.CommandLine

/-- A flag without a value. -/
inductive Switch where
  | keepEvaluation
  | noAutoload
  | quiet
  | verbose
  deriving DecidableEq

namespace Switch

/-- The letter that a flag is written as. -/
def letter : Switch → Char
  | .keepEvaluation => 'k'
  | .noAutoload => 'n'
  | .quiet => 'q'
  | .verbose => 'v'

/-- Whether a command line has the flag. -/
def isOn (c : CommandLine) : Switch → Bool
  | .keepEvaluation => c.keepEvaluation
  | .noAutoload => c.noAutoload
  | .quiet => c.quiet
  | .verbose => c.verbose

/-- The command line with the flag. -/
def turnOn (c : CommandLine) : Switch → CommandLine
  | .keepEvaluation => { c with keepEvaluation := true }
  | .noAutoload => { c with noAutoload := true }
  | .quiet => { c with quiet := true }
  | .verbose => { c with verbose := true }

/-- All flags without a value. -/
def all : List Switch := [.keepEvaluation, .noAutoload, .quiet, .verbose]

private theorem mem_all (s : Switch) : s ∈ all := by cases s <;> decide

private theorem letter_ne_dash (s : Switch) : s.letter ≠ '-' := by cases s <;> decide

private theorem isOn_turnOn (c : CommandLine) (s t : Switch) :
    s.isOn (t.turnOn c) = (s.isOn c || t == s) := by
  cases s <;> cases t <;> simp [isOn, turnOn]

end Switch

/-- A flag with a value. -/
inductive Flag where
  | code
  | directory
  | file
  deriving DecidableEq

namespace Flag

/-- The letter that a flag is written as. -/
def letter : Flag → Char
  | .code => 'e'
  | .directory => 'd'
  | .file => 'f'

/-- The command line in which a flag has a value. Code is added to the code that is there. -/
def give (c : CommandLine) (value : String) : Flag → CommandLine
  | .code => { c with eval := c.eval ++ [value] }
  | .directory => { c with home := some value }
  | .file => { c with config := .file value }

end Flag

/-- What ends an argument of flags, as it is written. -/
inductive Setting where
  /-- A flag with its value behind it in the same argument. -/
  | attached (flag : Flag) (value : String) (nonempty : value ≠ "")
  /-- A flag with its value in the next argument, which must not look like a flag if it is a
  file. -/
  | apart (flag : Flag) (value : String) (plain : flag = .file → startsWithDash value = false)
  /-- The flag of a file without a file. -/
  | noFile

namespace Setting

/-- What stands in the argument of the flag. -/
def letters : Setting → List Char
  | .attached flag value _ => flag.letter :: value.toList
  | .apart flag _ _ => [flag.letter]
  | .noFile => [Flag.file.letter]

/-- The argument that follows. -/
def following : Setting → Option String
  | .attached _ _ _ | .noFile => none
  | .apart _ value _ => some value

/-- The flag and its value. -/
def given : Setting → Option (Flag × String)
  | .attached flag value _ | .apart flag value _ => some (flag, value)
  | .noFile => none

/-- The code that is given. -/
def code? (x : Setting) : Option String :=
  match x.given with
  | some (.code, value) => some value
  | _ => none

/-- The home directory that is given. -/
def directory? (x : Setting) : Option String :=
  match x.given with
  | some (.directory, value) => some value
  | _ => none

/-- The choice of the configuration file that is made. -/
def config? (x : Setting) : Option ConfigChoice :=
  match x.given with
  | some (.file, value) => some (.file value)
  | some _ => none
  | none => some .skip

/-- The command line with a setting. -/
def apply (c : CommandLine) (x : Setting) : CommandLine :=
  match x.given with
  | some (flag, value) => flag.give c value
  | none => { c with config := .skip }

end Setting

/-- An argument of flags: flags without a value, and at most one setting at its end. -/
structure Cluster where
  switches : List Switch
  setting : Option Setting
  nonempty : switches ≠ [] ∨ setting.isSome

namespace Cluster

/-- What stands behind the dash. -/
def letters (k : Cluster) : List Char :=
  k.switches.map Switch.letter ++ k.setting.elim [] Setting.letters

/-- The arguments that flags are written as. -/
def arguments (k : Cluster) : List String :=
  String.ofList ('-' :: k.letters) :: (k.setting.bind Setting.following).toList

/-- The command line with what an argument of flags asks for. -/
def apply (c : CommandLine) (k : Cluster) : CommandLine :=
  k.setting.elim (k.switches.foldl Switch.turnOn c)
    (Setting.apply (k.switches.foldl Switch.turnOn c))

end Cluster

/-- A way of writing a command line. Of several home directories or files the last one counts. The
scripts stand behind two dashes, which may be left out when there are none. -/
structure Rendering (c : CommandLine) where
  clusters : List Cluster
  /-- Two dashes end the flags. -/
  ended : Bool
  home : (clusters.filterMap (·.setting.bind Setting.directory?)).getLast? = c.home
  config : (clusters.filterMap (·.setting.bind Setting.config?)).getLast?.getD .search = c.config
  eval : clusters.filterMap (·.setting.bind Setting.code?) = c.eval
  switches : ∀ s : Switch, clusters.any (·.switches.contains s) = s.isOn c
  scripts : c.scripts ≠ [] → ended = true

/-- What stands behind the flags. -/
def Rendering.closing {c : CommandLine} (r : Rendering c) : List String :=
  if r.ended then "--" :: c.scripts else []

/-- The arguments that a command line is written as. -/
def Rendering.arguments {c : CommandLine} (r : Rendering c) : List String :=
  r.clusters.flatMap Cluster.arguments ++ r.closing

/-! ## Reading what was written -/

/-- An argument that follows is no value of a flag before it. -/
def Dashed (rest : List String) : Prop := rest.head?.all startsWithDash = true

private theorem readFlags_switches (c : CommandLine) (next : Option String) (switches : List Switch)
    (letters : List Char) :
    readFlags c next (switches.map Switch.letter ++ letters) =
      readFlags (switches.foldl Switch.turnOn c) next letters := by
  induction switches generalizing c with
  | nil => rfl
  | cons s switches ih =>
    rw [List.foldl_cons, ← ih]
    cases s <;> rfl

/-- A setting is read with the argument that follows it, and with no other. -/
theorem readFlags_setting (c : CommandLine) (x : Setting) {rest : List String}
    (dashed : Dashed rest) :
    readFlags c (x.following.toList ++ rest).head? x.letters =
      .ok (x.apply c, x.following.isSome) := by
  cases x with
  | attached flag value nonempty =>
    obtain ⟨v, vs, chars⟩ : ∃ v vs, value.toList = v :: vs :=
      List.exists_cons_of_ne_nil fun h => nonempty (String.toList_eq_nil_iff.mp h)
    obtain rfl : String.ofList (v :: vs) = value := by rw [← chars, String.ofList_toList]
    rw [Setting.letters, String.toList_ofList]
    cases flag <;> rfl
  | apart flag value plain =>
    cases flag with
    | code => rfl
    | directory => rfl
    | file =>
      simp [Setting.letters, Flag.letter, Setting.following, readFlags, plain rfl, Setting.apply,
        Setting.given, Flag.give]
  | noFile =>
    have none_ : (rest.head?).all startsWithDash = true := dashed
    simp [Setting.letters, Flag.letter, Setting.following, readFlags, none_, Setting.apply,
      Setting.given]

private theorem Cluster.exists_letters (k : Cluster) : ∃ l ls, k.letters = l :: ls ∧ l ≠ '-' := by
  obtain ⟨switches, setting, nonempty⟩ := k
  cases switches with
  | cons s switches => exact ⟨_, _, rfl, s.letter_ne_dash⟩
  | nil =>
    obtain ⟨x, rfl⟩ := Option.isSome_iff_exists.mp (nonempty.resolve_left (· rfl))
    cases x with
    | attached flag value _ => exact ⟨_, _, rfl, by cases flag <;> decide⟩
    | apart flag value _ => exact ⟨_, _, rfl, by cases flag <;> decide⟩
    | noFile => exact ⟨_, _, rfl, by decide⟩

private theorem Cluster.ofText_letters (k : Cluster) :
    Argument.ofText (String.ofList ('-' :: k.letters)) = .flags k.letters := by
  obtain ⟨l, ls, letters, dash⟩ := k.exists_letters
  rw [Argument.ofText, String.toList_ofList, letters]
  split
  · next both => exact absurd (List.cons.inj (List.cons.inj both).2).1 dash
  · next h => rw [(List.cons.inj h).2]
  · next no => exact absurd rfl (no l ls)

/-- An argument of flags is read with the value that belongs to it. -/
theorem readArguments_cluster (c : CommandLine) (k : Cluster) {rest : List String}
    (dashed : Dashed rest) :
    readArguments c (k.arguments ++ rest) = readArguments (k.apply c) rest := by
  have flags : readFlags c ((k.setting.bind Setting.following).toList ++ rest).head? k.letters =
      .ok (k.apply c, (k.setting.bind Setting.following).isSome) := by
    rw [Cluster.letters, readFlags_switches, Cluster.apply]
    cases k.setting with
    | none => rfl
    | some x => exact readFlags_setting _ x dashed
  rw [Cluster.arguments, List.cons_append, readArguments, k.ofText_letters]
  simp only [flags]
  cases k.setting.bind Setting.following with
  | none => cases rest <;> rfl
  | some value => rfl

private theorem dashed_clusters (clusters : List Cluster) {rest : List String}
    (dashed : Dashed rest) :
    Dashed (clusters.flatMap Cluster.arguments ++ rest) := by
  cases clusters with
  | nil => exact dashed
  | cons k clusters =>
    simp [Dashed, Cluster.arguments, startsWithDash]

/-- Arguments of flags are read one after the other. -/
theorem readArguments_clusters (c : CommandLine) (clusters : List Cluster) {rest : List String}
    (dashed : Dashed rest) :
    readArguments c (clusters.flatMap Cluster.arguments ++ rest) =
      readArguments (clusters.foldl Cluster.apply c) rest := by
  induction clusters generalizing c with
  | nil => rfl
  | cons k clusters ih =>
    rw [List.flatMap_cons, List.append_assoc,
      readArguments_cluster c k (dashed_clusters clusters dashed), ih, List.foldl_cons]

/-! ## What flags add up to -/

private theorem home_apply (c : CommandLine) (x : Setting) :
    (x.apply c).home = x.directory?.or c.home := by
  unfold Setting.apply Setting.directory?
  rcases x.given with _ | ⟨flag, value⟩
  · rfl
  · cases flag <;> rfl

private theorem config_apply (c : CommandLine) (x : Setting) :
    (x.apply c).config = x.config?.getD c.config := by
  unfold Setting.apply Setting.config?
  rcases x.given with _ | ⟨flag, value⟩
  · rfl
  · cases flag <;> rfl

private theorem eval_apply (c : CommandLine) (x : Setting) :
    (x.apply c).eval = c.eval ++ x.code?.toList := by
  unfold Setting.apply Setting.code?
  rcases x.given with _ | ⟨flag, value⟩
  · exact (List.append_nil _).symm
  · cases flag
    · rfl
    · exact (List.append_nil _).symm
    · exact (List.append_nil _).symm

/-- A setting leaves the other flags and the scripts as they are. -/
theorem others_apply (c : CommandLine) (x : Setting) :
    (∀ s : Switch, s.isOn (x.apply c) = s.isOn c) ∧ (x.apply c).scripts = c.scripts := by
  unfold Setting.apply
  rcases x.given with _ | ⟨flag, value⟩
  · exact ⟨fun s => by cases s <;> rfl, rfl⟩
  · exact ⟨fun s => by cases flag <;> cases s <;> rfl, by cases flag <;> rfl⟩

/-- Flags without a value change nothing but themselves. -/
theorem turnOn_foldl (c : CommandLine) (switches : List Switch) :
    let d := switches.foldl Switch.turnOn c
    (∀ s : Switch, s.isOn d = (s.isOn c || switches.contains s)) ∧
      d.home = c.home ∧ d.config = c.config ∧ d.eval = c.eval ∧ d.scripts = c.scripts := by
  induction switches generalizing c with
  | nil => exact ⟨fun s => (Bool.or_false _).symm, rfl, rfl, rfl, rfl⟩
  | cons t switches ih =>
    obtain ⟨on, home, config, eval, scripts⟩ := ih (t.turnOn c)
    refine ⟨fun s => ?_, home.trans ?_, config.trans ?_, eval.trans ?_, scripts.trans ?_⟩
    · rw [List.foldl_cons, on, Switch.isOn_turnOn, Bool.or_assoc, List.contains_cons, BEq.comm]
    · cases t <;> rfl
    · cases t <;> rfl
    · cases t <;> rfl
    · cases t <;> rfl

/-- What a command line is, flags without a value taken together. -/
theorem eq_of_isOn {c d : CommandLine} (home : c.home = d.home) (config : c.config = d.config)
    (eval : c.eval = d.eval) (scripts : c.scripts = d.scripts)
    (on : ∀ s : Switch, s.isOn c = s.isOn d) : c = d := by
  have keep := on .keepEvaluation
  have noAutoload := on .noAutoload
  have quiet := on .quiet
  have verbose := on .verbose
  cases c
  cases d
  simp only [Switch.isOn] at keep noAutoload quiet verbose
  simp_all

/-- What an argument of flags adds to a command line. -/
theorem cluster_apply (c : CommandLine) (k : Cluster) :
    (k.apply c).home = (k.setting.bind Setting.directory?).or c.home ∧
      (k.apply c).config = (k.setting.bind Setting.config?).getD c.config ∧
      (k.apply c).eval = c.eval ++ (k.setting.bind Setting.code?).toList ∧
      (k.apply c).scripts = c.scripts ∧
      ∀ s : Switch, s.isOn (k.apply c) = (s.isOn c || k.switches.contains s) := by
  obtain ⟨on, home, config, eval, scripts⟩ := turnOn_foldl c k.switches
  rw [Cluster.apply]
  cases k.setting with
  | none => exact ⟨home, config, eval.trans (List.append_nil _).symm, scripts, on⟩
  | some x =>
    obtain ⟨same, still⟩ := others_apply (k.switches.foldl Switch.turnOn c) x
    refine ⟨(home_apply _ x).trans ?_, (config_apply _ x).trans ?_, (eval_apply _ x).trans ?_,
      still.trans scripts, fun s => (same s).trans (on s)⟩
    · rw [home]
      rfl
    · rw [config]
      rfl
    · rw [eval]
      rfl

/-- What arguments of flags add to a command line: all code in order, of other values the last
one, and every flag that stands in one of them. -/
theorem clusters_foldl (c : CommandLine) (clusters : List Cluster) :
    let d := clusters.foldl Cluster.apply c
    d.home = (clusters.filterMap (·.setting.bind Setting.directory?)).getLast?.or c.home ∧
      d.config = (clusters.filterMap (·.setting.bind Setting.config?)).getLast?.getD c.config ∧
      d.eval = c.eval ++ clusters.filterMap (·.setting.bind Setting.code?) ∧
      d.scripts = c.scripts ∧
      ∀ s : Switch, s.isOn d = (s.isOn c || clusters.any (·.switches.contains s)) := by
  induction clusters using List.reverseRecOn with
  | nil => exact ⟨rfl, rfl, (List.append_nil _).symm, rfl, fun s => (Bool.or_false _).symm⟩
  | append_singleton clusters k ih =>
    obtain ⟨home, config, eval, scripts, on⟩ := ih
    obtain ⟨home', config', eval', scripts', on'⟩ :=
      cluster_apply (clusters.foldl Cluster.apply c) k
    simp only [List.foldl_append, List.foldl_cons, List.foldl_nil, List.filterMap_append,
      List.any_append]
    refine ⟨home'.trans ?_, config'.trans ?_, eval'.trans ?_, scripts'.trans scripts,
      fun s => (on' s).trans ?_⟩
    · rw [home, List.getLast?_append, ← Option.or_assoc]
      cases h : k.setting.bind Setting.directory? <;> simp [h]
    · rw [config, List.getLast?_append]
      cases h : k.setting.bind Setting.config? <;> simp [h]
    · rw [eval, List.append_assoc]
      cases h : k.setting.bind Setting.code? <;> simp [h]
    · rw [on, Bool.or_assoc, List.any_cons, List.any_nil, Bool.or_false]

/-! ## One way of writing -/

/-- The choice of a configuration file as a setting; a file is attached to its flag if it can be. -/
def configSettings : ConfigChoice → List Setting
  | .search => []
  | .skip => [.noFile]
  | .file path =>
    if h : path = "" then [.apart .file path fun _ => h ▸ rfl] else [.attached .file path h]

/-- It gives the choice back, and nothing else. -/
theorem filterMap_configSettings (choice : ConfigChoice) :
    ((configSettings choice).filterMap Setting.config?).getLast?.getD .search = choice ∧
      (configSettings choice).filterMap Setting.directory? = [] ∧
      (configSettings choice).filterMap Setting.code? = [] := by
  cases choice with
  | search => exact ⟨rfl, rfl, rfl⟩
  | skip => exact ⟨rfl, rfl, rfl⟩
  | file path =>
    by_cases h : path = ""
    · rw [configSettings, dif_pos h]
      exact ⟨rfl, rfl, rfl⟩
    · rw [configSettings, dif_neg h]
      exact ⟨rfl, rfl, rfl⟩

/-- The settings of a command line. -/
def settings (c : CommandLine) : List Setting :=
  c.home.toList.map (.apart .directory · nofun) ++ configSettings c.config ++
    c.eval.map (.apart .code · nofun)

/-- A command line with each flag in an argument of its own. -/
def plainClusters (c : CommandLine) : List Cluster :=
  (Switch.all.filter (Switch.isOn c)).map (fun s => ⟨[s], none, .inl (List.cons_ne_nil s [])⟩) ++
    (settings c).map fun x => ⟨[], some x, .inr rfl⟩

private theorem filterMap_plainClusters {α : Type} (c : CommandLine) (f : Setting → Option α) :
    (plainClusters c).filterMap (·.setting.bind f) =
      c.home.toList.filterMap (fun dir => f (.apart .directory dir nofun)) ++
        (configSettings c.config).filterMap f ++
        c.eval.filterMap fun code => f (.apart .code code nofun) := by
  simp [plainClusters, settings, List.filterMap_map, Function.comp_def]

/-- Every command line can be written. -/
def Rendering.plain (c : CommandLine) : Rendering c where
  clusters := plainClusters c
  ended := true
  home := by
    obtain ⟨-, config, -⟩ := filterMap_configSettings c.config
    have eval : c.eval.filterMap (fun code => Setting.directory? (.apart .code code nofun)) = [] :=
      List.filterMap_eq_nil_iff.mpr fun _ _ => rfl
    rw [filterMap_plainClusters, config, eval]
    cases c.home <;> rfl
  config := by
    obtain ⟨config, -, -⟩ := filterMap_configSettings c.config
    have eval : c.eval.filterMap (fun code => Setting.config? (.apart .code code nofun)) = [] :=
      List.filterMap_eq_nil_iff.mpr fun _ _ => rfl
    rw [filterMap_plainClusters, eval, List.append_nil]
    cases c.home <;> exact config
  eval := by
    obtain ⟨-, -, config⟩ := filterMap_configSettings c.config
    rw [filterMap_plainClusters, config]
    cases c.home <;> exact List.filterMap_some
  switches s := by
    have among := Switch.mem_all s
    rw [Bool.eq_iff_iff]
    simp [plainClusters, among]
  scripts _ := rfl

/-- Every command line can be written, and reading gives it back however it is written. -/
theorem parse_rendering (c : CommandLine) :
    Nonempty (Rendering c) ∧ ∀ r : Rendering c, parse r.arguments = .ok c := by
  refine ⟨⟨.plain c⟩, fun r => ?_⟩
  have dashed : Dashed r.closing := by
    unfold Rendering.closing
    split <;> rfl
  obtain ⟨home, config, eval, scripts, on⟩ := clusters_foldl empty r.clusters
  have flags : r.clusters.foldl Cluster.apply empty = { c with scripts := [] } := by
    refine eq_of_isOn ?_ (config.trans r.config) (eval.trans r.eval) scripts fun s => ?_
    · rw [home, r.home]
      exact Option.or_none
    · rw [on, r.switches]
      cases s <;> rfl
  rw [parse, Rendering.arguments, readArguments_clusters empty r.clusters dashed, flags,
    Rendering.closing]
  cases ended : r.ended with
  | true => rfl
  | false =>
    -- Without the two dashes there are no scripts.
    have none_ : c.scripts = [] :=
      Classical.byContradiction fun some_ => absurd (r.scripts some_) (by simp [ended])
    exact congrArg (fun scripts => Except.ok { c with scripts }) none_.symm

/-- Flags that lead an argument, values of both kinds, a file left out, and a script that looks
like a flag. -/
example :
    parse ["-qe", "print(1)", "-kf", "-v", "-dhome", "-e--", "--", "-odd.lua"] =
      .ok ⟨some "home", .skip, ["print(1)", "--"], true, false, true, true, ["-odd.lua"]⟩ := by
  decide

end LuaHost.CommandLine
