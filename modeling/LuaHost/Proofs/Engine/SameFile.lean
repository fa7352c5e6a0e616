import LuaHost.Proofs.Engine.Reload
import LuaHost.Proofs.Engine.Removal
import Mathlib.Data.List.Count

/-!
# Scripts of one file name

No two scripts register under one name, but a batch knows scripts by the name of their file, and
there several may be the same. Whenever a batch names a file, the oldest script of that file name is
unloaded, whichever directory it was loaded from. The others go on running.
-/

namespace LuaHost.Engine

variable {a e : Engine} {batch : Batch}

/-! ### The oldest script of a file name -/

/-- The scripts without the oldest one of a file name. -/
def withoutOldest (scripts : List Script) (name : String) : List Script :=
  scripts.eraseP (·.baseName = name)

private theorem map_baseName_withoutOldest (scripts : List Script) (name : String) :
    (withoutOldest scripts name).map Script.baseName =
      (scripts.map Script.baseName).erase name := by
  have same : (fun s : Script => decide (s.baseName = name)) =
      (fun n => name == n) ∘ Script.baseName := by
    funext s
    simp [beq_eq_decide, eq_comm]
  rw [withoutOldest, List.erase_eq_eraseP, List.eraseP_map, same]

/-- Each time a file name is named, one script of it is gone. -/
theorem map_baseName_foldl (names : List String) (scripts : List Script) :
    (names.foldl withoutOldest scripts).map Script.baseName =
      (scripts.map Script.baseName).diff names := by
  induction names generalizing scripts with
  | nil => rfl
  | cons name names ih => rw [List.foldl_cons, ih, map_baseName_withoutOldest, List.diff_cons]

private theorem foldl_withoutOldest_subset (names : List String) (scripts : List Script) :
    names.foldl withoutOldest scripts ⊆ scripts := by
  induction names generalizing scripts with
  | nil => exact List.Subset.refl _
  | cons name names ih => exact List.Subset.trans (ih _) List.eraseP_subset

/-- Every script of one of the names is gone when each name was named as often as there were scripts
of it. -/
theorem forall_notMem_foldl_iff (names : List String) (scripts : List Script) :
    (∀ s ∈ names.foldl withoutOldest scripts, s.baseName ∉ names) ↔
      ∀ name ∈ names, (scripts.map Script.baseName).count name ≤ names.count name := by
  have left (name : String) : name ∉ (names.foldl withoutOldest scripts).map Script.baseName ↔
      (scripts.map Script.baseName).count name ≤ names.count name := by
    rw [map_baseName_foldl, ← List.count_eq_zero, List.count_diff, Nat.sub_eq_zero_iff_le]
  constructor
  · intro gone name named
    refine (left name).mp fun mem => ?_
    obtain ⟨s, stays, rfl⟩ := List.mem_map.mp mem
    exact gone s stays named
  · intro enough s stays named
    exact (left s.baseName).mpr (enough _ named) (List.mem_map.mpr ⟨s, stays, rfl⟩)

/-- The oldest script of a file name is the only one with its number. -/
theorem filter_findByBaseName? (h : e.Settled) (name : String) :
    e.scripts.filter (fun s => e.core.registry.findByBaseName? name ≠ some s.id) =
      withoutOldest e.scripts name := by
  rw [withoutOldest, eq_comm, List.eraseP_eq_iff]
  cases found : e.core.registry.findByBaseName? name with
  | none =>
    have nobody := List.find?_eq_none.mp (Option.map_eq_none_iff.mp found)
    exact .inl ⟨nobody, (List.filter_eq_self.mpr fun _ _ => rfl).symm⟩
  | some id =>
    obtain ⟨s, oldest, rfl⟩ := Option.map_eq_some_iff.mp found
    obtain ⟨named, before, after, split, others⟩ := List.find?_eq_some_iff_append.mp oldest
    have younger : e.scripts.filter (fun t => some s.id ≠ some t.id) = before ++ after := by
      rw [← h.wellFormed.filter_of_split split]
      exact List.filter_congr fun t _ => by simp [eq_comm]
    exact .inr ⟨s, before, after, fun t mem => by simpa using others t mem, named, split, younger⟩

/-! ### Removing -/

private theorem scripts_retire (h : e.Settled) (batch : Batch) (name : String) :
    (retire batch e name).1.scripts = withoutOldest e.scripts name :=
  (retire_cases h batch name).2.trans (filter_findByBaseName? h name)

private theorem scripts_removeFile (h : e.Settled) (batch : Batch) (name : String) :
    (removeFile batch e name).scripts = withoutOldest e.scripts name := by
  have retired := scripts_retire h batch name
  unfold removeFile
  dsimp only
  split
  · exact retired
  · exact retired

/-- A batch of removals takes the oldest script of a file name away each time it is named. -/
theorem scripts_removeFiles (h : e.Settled) (batch : Batch) (names : List String) :
    (names.foldl (removeFile batch) e).scripts = names.foldl withoutOldest e.scripts := by
  induction names generalizing e with
  | nil => rfl
  | cons name names ih =>
    rw [List.foldl_cons, List.foldl_cons, ih (h.removeFile batch name), scripts_removeFile h]

/-! ### Installing -/

/-- Starting a script that was installed brings in at most one script. -/
theorem scripts_startInstalled (h : e.Settled) (batch : Batch) (base target : String)
    (wasLoaded existed : Bool) :
    ∃ new, (startInstalled batch e base target wasLoaded existed).scripts = e.scripts ++ new ∧
      ∀ s ∈ new, s.id = e.core.registry.nextId := by
  obtain ⟨settled, registry⟩ :
      (if batch.autoload then e.linkInstalled base else e).Settled ∧
        (if batch.autoload then e.linkInstalled base else e).core.registry = e.core.registry := by
    split
    · exact ⟨h.moves (upheld_deeds.settleFiles e _ _).moves, registry_settleFiles _ _ _⟩
    · exact ⟨h, rfl⟩
  unfold startInstalled
  dsimp only
  generalize (if batch.autoload then e.linkInstalled base else e) = e' at settled registry ⊢
  have same : e'.scripts = e.scripts := congrArg Registry.scripts registry
  split
  · rcases load_cases settled target none with ⟨about, -, kept⟩ | ⟨failure, -, untouched⟩
    · refine ⟨_, (scripts_of_loaded settled kept).trans (by rw [same]), ?_⟩
      intro s new
      obtain rfl := List.mem_singleton.mp new
      rw [← registry]
      rfl
    · exact ⟨[], by rw [untouched.scripts, same, List.append_nil], List.forall_mem_nil _⟩
  · exact ⟨[], by rw [same, List.append_nil], List.forall_mem_nil _⟩

/-- Putting a file in the place of an installed script takes the oldest script of its name away. -/
theorem scripts_installFile (h : e.Settled) (batch : Batch) (source : String) :
    ∃ new, (installFile batch e source).scripts =
        (Path.fileName? source).toList.foldl withoutOldest e.scripts ++ new ∧
      ∀ s ∈ new, e.core.registry.lastId < s.id.number := by
  unfold installFile
  cases Path.fileName? source with
  | none => exact ⟨[], (List.append_nil _).symm, List.forall_mem_nil _⟩
  | some base =>
    have retired := scripts_retire h batch base
    have moves := (upheld_deeds.retire batch e base).moves
    have settled := h.moves moves
    have grown := h.grows_moves moves
    dsimp only [Option.toList_some, List.foldl_cons, List.foldl_nil]
    generalize retire batch e base = after at retired settled grown ⊢
    split
    · exact ⟨[], by rw [List.append_nil]; exact retired, List.forall_mem_nil _⟩
    · next files _ =>
      have settled' : Settled { after.1 with files } := settled.congr rfl rfl rfl rfl rfl rfl
      obtain ⟨new, scripts, number⟩ := scripts_startInstalled settled' batch base
        (Path.join after.1.dirs.installed base) after.2.1 after.2.2
      refine ⟨new, scripts.trans (congrArg (· ++ new) retired), ?_⟩
      intro s mem
      rw [number s mem]
      exact Nat.lt_succ_of_le grown.lastId

/-- The engine has some scripts that were there before, and after them only newer ones. -/
structure Renewed (a : Engine) (old : List Script) (e : Engine) : Prop where
  settled : e.Settled
  grown : a.Grows e
  scripts : ∃ new, e.scripts = old ++ new ∧ ∀ s ∈ new, a.core.registry.lastId < s.id.number

/-- What is taken away is an old script as long as there is one of the name. -/
theorem foldl_withoutOldest_append (names : List String) (old new : List Script) :
    ∃ fewer, names.foldl withoutOldest (old ++ new) = names.foldl withoutOldest old ++ fewer ∧
      fewer ⊆ new := by
  induction names generalizing old new with
  | nil => exact ⟨new, rfl, List.Subset.refl _⟩
  | cons name names ih =>
    rw [List.foldl_cons, List.foldl_cons]
    by_cases there : old.any (·.baseName = name) = true
    · have first : withoutOldest (old ++ new) name = withoutOldest old name ++ new := by
        rw [withoutOldest, List.eraseP_append, if_pos there, withoutOldest]
      rw [first]
      exact ih _ _
    · have first : withoutOldest (old ++ new) name =
          withoutOldest old name ++ withoutOldest new name := by
        have untouched : withoutOldest old name = old :=
          List.eraseP_eq_self_iff.mpr (by simpa using there)
        rw [untouched, withoutOldest, List.eraseP_append, if_neg there, withoutOldest]
      rw [first]
      obtain ⟨fewer, whole, less⟩ := ih (withoutOldest old name) (withoutOldest new name)
      exact ⟨fewer, whole, List.Subset.trans less List.eraseP_subset⟩

private theorem Renewed.installFile {old : List Script} (h : a.Renewed old e) (batch : Batch)
    (source : String) :
    a.Renewed ((Path.fileName? source).toList.foldl withoutOldest old)
      (installFile batch e source) := by
  have moves := (upheld_deeds.installFile batch e source).moves
  obtain ⟨new, scripts, newer⟩ := h.scripts
  obtain ⟨newest, after, number⟩ := scripts_installFile h.settled batch source
  obtain ⟨fewer, split, less⟩ :=
    foldl_withoutOldest_append (Path.fileName? source).toList old new
  have grown := h.grown.trans (h.settled.grows_moves moves)
  refine ⟨h.settled.moves moves, grown, fewer ++ newest, ?_, ?_⟩
  · rw [after, scripts, split, List.append_assoc]
  · intro s mem
    rcases List.mem_append.mp mem with earlier | last
    · exact newer s (less earlier)
    · exact Nat.lt_of_le_of_lt h.grown.lastId (number s last)

/-- Installing files takes the oldest script of a file name away each time a file of that name is
installed, an old one as long as there is one. -/
theorem renewed_installFiles {old : List Script} (h : a.Renewed old e) (batch : Batch)
    (names : List String) :
    a.Renewed ((names.filterMap Path.fileName?).foldl withoutOldest old)
      (names.foldl (Engine.installFile batch) e) := by
  induction names generalizing e old with
  | nil => exact h
  | cons name names ih =>
    have rest := ih (h.installFile batch name)
    rw [← List.foldl_append] at rest
    rw [List.foldl_cons]
    have bases : (name :: names).filterMap Path.fileName? =
        (Path.fileName? name).toList ++ names.filterMap Path.fileName? := by
      cases named : Path.fileName? name with
      | none => rw [List.filterMap_cons_none named]; rfl
      | some base => rw [List.filterMap_cons_some named]; rfl
    rw [bases]
    exact rest

/-! ### Batches -/

/-- Whenever a batch of removals names a file, the oldest script of that file name goes. So none of
the names is that of a script afterwards exactly when each was named as often as there were scripts
of it. An installation deals in the same way with the scripts that were there before, unless its
directories cannot be made. -/
theorem remove_unloads_iff (h : e.Settled) (batch : Batch) :
    (e.remove batch).scripts = batch.names.foldl withoutOldest e.scripts ∧
      ((∀ s ∈ (e.remove batch).scripts, s.baseName ∉ batch.names) ↔
        ∀ name ∈ batch.names,
          (e.scripts.map Script.baseName).count name ≤ batch.names.count name) ∧
      ((e.dirs.create e.files).2 = .ok () →
        let bases := batch.names.filterMap Path.fileName?
        (∃ new, (e.install batch).scripts = bases.foldl withoutOldest e.scripts ++ new ∧
          ∀ s ∈ new, e.core.registry.lastId < s.id.number) ∧
        ((∀ s ∈ (e.install batch).scripts,
            s.id.number ≤ e.core.registry.lastId → s.baseName ∉ bases) ↔
          ∀ name ∈ bases, (e.scripts.map Script.baseName).count name ≤ bases.count name)) := by
  have removed : (e.remove batch).scripts = batch.names.foldl withoutOldest e.scripts :=
    scripts_removeFiles h batch batch.names
  refine ⟨removed, ?_, ?_⟩
  · rw [removed]
    exact forall_notMem_foldl_iff _ _
  · intro created
    have installed : e.install batch =
        batch.names.foldl (installFile batch) { e with files := e.prepared } := by
      unfold install prepared
      rcases hc : e.dirs.create e.files with ⟨files, error | ⟨⟩⟩
      · rw [hc] at created
        cases created
      · rfl
    have settled : Settled { e with files := e.prepared } := h.congr rfl rfl rfl rfl rfl rfl
    have start : e.Renewed e.scripts { e with files := e.prepared } :=
      ⟨settled, .of_eq rfl rfl, [], (List.append_nil _).symm, List.forall_mem_nil _⟩
    -- What an installation loads is told from the scripts before it by its number.
    obtain ⟨new, scripts, newer⟩ := (renewed_installFiles start batch batch.names).scripts
    rw [← installed] at scripts
    refine ⟨⟨new, scripts, newer⟩, ?_⟩
    rw [← forall_notMem_foldl_iff, scripts]
    constructor
    · intro gone s stays
      have bounded := h.wellFormed.bounded s ((foldl_withoutOldest_subset _ _) stays)
      exact gone s (List.mem_append_left _ stays) bounded
    · intro gone s mem old
      rcases List.mem_append.mp mem with stays | recent
      · exact gone s stays
      · exact absurd (newer s recent) (Nat.not_lt.mpr old)

/-- An engine with two scripts of one file name, of which the one that is installed was loaded
last. -/
def doubled : Engine :=
  let tree := (FileTree.empty ["w"]).put ["w", "h"] .directory
  let tree := tree.put ["w", "h", "lua"] .directory
  let tree := tree.put ["w", "h", "lua", "x.lua"]
    (.file "weechat.register('b', '', '', '', '', '', '')".toUTF8)
  let first := (new bare.core.options "GPL3" tree bare.environment 1000).perform
    (.load "o/x.lua" (some "weechat.register('a', '', '', '', '', '', '')"))
  first.perform (.load "h/lua/x.lua" none)

private theorem reachable_doubled : doubled.Reachable := by
  unfold doubled
  apply Reachable.perform
  apply Reachable.perform
  exact .of_new _ _ _ _ _ .refl

set_option maxRecDepth 100000 in
/-- The case of two scripts of one file name, removed by two names and installed by one. -/
theorem remove_unloads_iff_doubled :
    (∀ s ∈ (doubled.remove ⟨false, false, ["x.lua", "x.lua"]⟩).scripts,
        s.baseName ∉ ["x.lua", "x.lua"]) ∧
      (doubled.dirs.create doubled.files).2 = .ok () ∧
      ¬∀ s ∈ (doubled.install ⟨false, false, ["s/x.lua"]⟩).scripts,
        s.id.number ≤ doubled.core.registry.lastId → s.baseName ∉ ["x.lua"] := by
  obtain ⟨twice, created, base⟩ : doubled.scripts.map Script.baseName = ["x.lua", "x.lua"] ∧
      (doubled.dirs.create doubled.files).2 = .ok () ∧
      ["s/x.lua"].filterMap Path.fileName? = ["x.lua"] := by
    decide +kernel
  have removed := remove_unloads_iff reachable_doubled.settled ⟨false, false, ["x.lua", "x.lua"]⟩
  have installed := remove_unloads_iff reachable_doubled.settled ⟨false, false, ["s/x.lua"]⟩
  dsimp only at removed installed
  rw [twice] at removed installed
  rw [base] at installed
  refine ⟨removed.2.1.mpr (by decide), created, fun gone => ?_⟩
  have enough := (installed.2.2 created).2.mp gone
  exact absurd enough (by decide)

set_option maxRecDepth 100000 in
/-- The file of an installed script is removed, while another script of its file name is unloaded in
its place. -/
theorem remove_leaves_installed :
    doubled.Reachable ∧ doubled.scripts.map Script.filename = ["o/x.lua", "h/lua/x.lua"] ∧
      doubled.files.isFile "h/lua/x.lua" = true ∧
      (doubled.remove ⟨false, false, ["x.lua"]⟩).files.hasEntry "h/lua/x.lua" = false ∧
      (doubled.remove ⟨false, false, ["x.lua"]⟩).scripts.map Script.filename =
        ["h/lua/x.lua"] := by
  refine ⟨reachable_doubled, ?_⟩
  decide +kernel

end LuaHost.Engine
