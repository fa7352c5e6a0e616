import LuaHost.Proofs.Engine.Reachable
import LuaHost.Proofs.Files.ScriptDirs

/-!
# Installing a script

Before a file is put into the directory of installed scripts, the script loaded from a file of its
name is unloaded and the copies of it that are found are removed. What an installation leaves
behind follows from which entries that takes away.
-/

namespace LuaHost.Engine

/-! ### What an engine sees of the disk -/

/-- The engine sees the same tree in the same surroundings. -/
structure SameDisk (e e' : Engine) : Prop where
  files : e'.files = e.files
  environment : e'.environment = e.environment
  options : e'.core.options = e.core.options

namespace SameDisk

variable {a b c : Engine}

private theorem refl (e : Engine) : e.SameDisk e := ⟨rfl, rfl, rfl⟩

/-- What is the same over two stretches is the same over both. -/
theorem trans (h : a.SameDisk b) (h' : b.SameDisk c) : a.SameDisk c :=
  ⟨h'.files.trans h.files, h'.environment.trans h.environment, h'.options.trans h.options⟩

/-- An engine that is kept sees the same disk. -/
theorem of_kept (h : a.Kept b) : a.SameDisk b := ⟨h.files, h.environment, h.core.options⟩

/-- The script directories are the same. -/
theorem dirs (h : a.SameDisk b) : b.dirs = a.dirs := by rw [Engine.dirs, h.options, Engine.dirs]

end SameDisk

private theorem Kept.withFiles {e e' : Engine} (h : e.Kept e') (files : FileTree) :
    { e with files }.Kept { e' with files } :=
  ⟨⟨h.contexts, h.scratch, h.closed, rfl, h.environment, h.budget⟩, h.core⟩

private theorem sameDisk_load {e : Engine} (h : e.Settled) (filename : String)
    (code : Option String) :
    e.SameDisk (e.load filename code).1 := by
  unfold load
  split
  · exact .of_kept (e.kept_complain _)
  · next source _ =>
    rcases loadSource_cases h filename source code.isNone with
      ⟨about, -, -, -, -, kept⟩ | ⟨failure, lastId, -, -, -, kept⟩
    · exact SameDisk.trans (b := e.loaded filename about) ⟨rfl, rfl, rfl⟩ (.of_kept kept)
    · exact SameDisk.trans (b := e.spent lastId) ⟨rfl, rfl, rfl⟩ (.of_kept kept)

/-! ### The clean-up -/

/-- Unloading the script of a file name touches no file and takes away the oldest script that was
loaded from a file of that name. -/
theorem unloadFile_cases {e : Engine} (h : e.Settled) (baseName : String) :
    e.SameDisk (e.unloadFile baseName).1 ∧
      (e.unloadFile baseName).1.scripts =
        e.scripts.filter fun s => e.core.registry.findByBaseName? baseName ≠ some s.id := by
  unfold unloadFile
  cases hf : e.core.registry.findByBaseName? baseName with
  | none => exact ⟨.refl e, (List.filter_eq_self.mpr fun s _ => by simp).symm⟩
  | some id =>
    obtain ⟨s, hs, rfl⟩ := Option.map_eq_some_iff.mp hf
    have found : e.script? s.id = some s :=
      (h.wellFormed.get?_eq_some_iff s.id s).mpr ⟨List.mem_of_find?_eq_some hs, rfl⟩
    have kept := (kept_unload h.closed h.activeKnown found).2
    constructor
    · exact SameDisk.trans (b := e.unloaded s) ⟨rfl, rfl, rfl⟩ (.of_kept kept)
    · dsimp only
      rw [scripts, kept.core.registry]
      refine (Registry.scripts_remove _ _).trans (List.filter_congr fun x _ => ?_)
      simp [eq_comm]

/-- Removing what is found at a path takes its entry away, or complains. -/
theorem kept_removeCopy (e : Engine) (path : String) (quiet : Bool) :
    (e.files.removed? path = none ∧ e.Kept (e.removeCopy path quiet).1 ∧
      (e.removeCopy path quiet).2 = false) ∨
    (∃ loc, e.files.removed? path = some loc ∧
      { e with files := e.files.erase loc }.Kept (e.removeCopy path quiet).1 ∧
      (e.removeCopy path quiet).2 = true) := by
  rcases e.files.remove_cases path with ⟨error, hloc, hr⟩ | ⟨loc, hloc, hr⟩
  · simp only [removeCopy, hr]
    exact .inl ⟨hloc, e.kept_complain _, trivial⟩
  · simp only [removeCopy, hr]
    refine .inr ⟨loc, hloc, ?_, trivial⟩
    cases quiet with
    | true => exact .refl _
    | false => exact kept_say _ _

/-- Removing the copies of a script takes away what is found and keeps the rest. -/
theorem kept_removeCopies (name : String) (quiet : Bool) (n : Nat) (e : Engine) :
    { e with files := e.dirs.cleared e.environment name n e.files }.Kept
      (removeCopies name quiet n e).1 := by
  induction n generalizing e with
  | zero => exact .refl e
  | succ n ih =>
    unfold removeCopies
    dsimp only
    by_cases hsame : Path.same (e.search name) name = true
    · rw [if_pos hsame, ScriptDirs.cleared_stop _ _ _ (.inl hsame)]
      exact .refl e
    · rw [if_neg hsame]
      rcases e.kept_removeCopy (e.search name) quiet with
        ⟨hloc, kept, failed⟩ | ⟨loc, hloc, kept, succeeded⟩
      · rw [failed, if_neg Bool.false_ne_true, ScriptDirs.cleared_stop _ _ _ (.inr hloc)]
        dsimp only
        exact kept
      · rw [succeeded, if_pos rfl, ScriptDirs.cleared_succ _ _ _ hsame hloc]
        dsimp only
        generalize (e.removeCopy (e.search name) quiet).1 = removal at kept ⊢
        have rest := ih removal
        have files : removal.files = e.files.erase loc := kept.files
        have environment : removal.environment = e.environment := kept.environment
        have dirs : removal.dirs = e.dirs := (SameDisk.of_kept kept).dirs
        have cleared : removal.dirs.cleared removal.environment name n removal.files =
            e.dirs.cleared e.environment name n (e.files.erase loc) := by
          rw [files, environment, dirs]
        rw [cleared] at rest
        exact (kept.withFiles _).trans rest

/-- What is there after the script of a file name was retired: the tree without the copies of the
script, and the scripts without the oldest one that was loaded from such a file. -/
theorem retire_cases {e : Engine} (h : e.Settled) (batch : Batch) (name : String) :
    { e with files := e.dirs.cleared e.environment name 2 e.files }.SameDisk
        (retire batch e name).1 ∧
      (retire batch e name).1.scripts =
        e.scripts.filter fun s => e.core.registry.findByBaseName? name ≠ some s.id := by
  obtain ⟨disk, scripts⟩ := unloadFile_cases h name
  have kept := kept_removeCopies name batch.quiet 2 (e.unloadFile name).1
  unfold retire removeInstalled
  dsimp only
  generalize (e.unloadFile name).1 = e₁ at disk scripts kept ⊢
  generalize (removeCopies name batch.quiet 2 e₁).1 = e₂ at kept ⊢
  have files : e₂.files = e.dirs.cleared e.environment name 2 e.files := by
    rw [kept.files]
    dsimp only
    rw [disk.files, disk.environment, disk.dirs]
  refine ⟨⟨files, ?_, ?_⟩, ?_⟩
  · exact kept.environment.trans disk.environment
  · exact kept.core.options.trans disk.options
  · rw [← scripts]
    exact congrArg Registry.scripts kept.core.registry

/-! ### Installing what is not there -/

private theorem back?_complain (e : Engine) (message : String) :
    (e.updateCore (·.complain message)).core.events.back? =
      some (.print none (errorMark ++ engineName ++ ": " ++ message)) := Array.back?_push

/-- The file name that a path ends in, if it ends in one, has no tilde in front, and no copy of a
script of that name is in the home. -/
def InstalledOnly (e : Engine) (source : String) : Prop :=
  ∀ base, Path.fileName? source = some base →
    base.toList.head? ≠ some '~' ∧ e.files.exists? (Path.join e.dirs.home base) = false

/-- Installing from a path without an entry ends with an error and loads nothing. Before that the
oldest script that was loaded from a file of the name is unloaded, and at most two installed copies
of it are removed; the rest of the tree is as it was. -/
theorem install_missing {e : Engine} (h : e.Settled) (batch : Batch) {source : String}
    (missing : e.files.hasEntry source = false) (only : e.InstalledOnly source) :
    (∃ message, (installFile batch e source).core.events.back? =
        some (.print none (errorMark ++ engineName ++ ": " ++ message))) ∧
      (installFile batch e source).scripts = e.scripts.filter (fun s =>
        (Path.fileName? source).bind e.core.registry.findByBaseName? ≠ some s.id) ∧
      ∃ gone : List Location, gone.length ≤ 2 ∧
        (∀ loc ∈ gone, ∃ base path x, Path.fileName? source = some base ∧
          path ∈ e.dirs.installedCopies base ∧ x ≠ .directory ∧
          e.files.locate path = .ok (.entry loc x)) ∧
        ∀ loc, (installFile batch e source).files.get? loc =
          if loc ∈ gone then none else e.files.get? loc := by
  unfold installFile
  cases hbase : Path.fileName? source with
  | none =>
    refine ⟨⟨_, back?_complain e _⟩, ?_, [], Nat.zero_le 2, fun _ hm => (by cases hm), ?_⟩
    · exact (List.filter_eq_self.mpr fun s _ => by simp).symm
    · intro loc
      rw [if_neg List.not_mem_nil]
      rfl
  | some base =>
    obtain ⟨disk, scripts⟩ := retire_cases h batch base
    have less := e.dirs.extends_cleared e.environment base 2 e.files
    dsimp only
    generalize retire batch e base = retired at disk scripts ⊢
    have gone : retired.1.files.hasEntry source = false := by
      rw [disk.files]
      exact less.hasEntry_eq_false missing
    obtain ⟨error, failed⟩ :=
      FileTree.move_missing gone (Path.join retired.1.dirs.installed base)
    rw [failed]
    refine ⟨⟨_, back?_complain _ _⟩, scripts, e.dirs.clearing e.environment base 2 e.files,
      e.dirs.length_clearing_le e.environment base 2 e.files, ?_, ?_⟩
    · intro loc hl
      obtain ⟨relative, absent⟩ := only base hbase
      obtain ⟨path, hp, x, hx, hloc⟩ :=
        e.dirs.locate_of_mem_clearing_installed e.environment relative absent hl
      exact ⟨base, path, x, rfl, hp, hx, hloc⟩
    · intro loc
      dsimp only [updateCore]
      rw [disk.files]
      exact e.dirs.get?_cleared e.environment base 2 e.files loc

/-- An engine with an installed script, a script in its home, and a new version of the first one. -/
def stocked : Engine :=
  let tree := (FileTree.empty ["w"]).put ["w", "h"] .directory
  let tree := tree.put ["w", "h", "lua"] .directory
  let tree := tree.put ["w", "h", "lua", "a.lua"] (.file .empty)
  let tree := tree.put ["w", "h", "x.lua"] (.file .empty)
  let tree := tree.put ["w", "s"] .directory
  let tree := tree.put ["w", "s", "a.lua"] (.file ⟨#[10]⟩)
  let tree := tree.put ["w", "s", "d.lua"] .directory
  { bare with files := tree }

private theorem settled_stocked : stocked.Settled :=
  reachable_bare.settled.congr rfl rfl rfl rfl rfl rfl

/-- The case of an installed script whose new version is not there. -/
theorem install_missing_stocked :
    let after := installFile ⟨false, false, ["gone/a.lua"]⟩ stocked "gone/a.lua"
    stocked.files.hasEntry "gone/a.lua" = false ∧
      (∃ message, after.core.events.back? =
        some (.print none (errorMark ++ engineName ++ ": " ++ message))) ∧
      after.files.hasEntry "h/lua/a.lua" = false ∧
      ∀ loc, loc ≠ ["w", "h", "lua", "a.lua"] →
        after.files.get? loc = stocked.files.get? loc := by
  have missing : stocked.files.hasEntry "gone/a.lua" = false := by decide +kernel
  have named : Path.fileName? "gone/a.lua" = some "a.lua" := by decide +kernel
  have only : stocked.InstalledOnly "gone/a.lua" := by
    intro base hbase
    obtain rfl := Option.some.inj (named.symm.trans hbase)
    decide +kernel
  obtain ⟨error, -, gone, -, copies, rest⟩ :=
    install_missing settled_stocked ⟨false, false, ["gone/a.lua"]⟩ missing only
  refine ⟨missing, error, by decide +kernel, fun loc other => ?_⟩
  rw [rest, if_neg fun taken => other ?_]
  obtain ⟨base, path, x, hbase, copy, -, leads⟩ := copies loc taken
  obtain rfl := Option.some.inj (named.symm.trans hbase)
  have link : stocked.files.locate (Path.join stocked.dirs.autoload "a.lua") =
      .error .notFound := by decide +kernel
  have file : stocked.files.locate (Path.join stocked.dirs.installed "a.lua") =
      .ok (.entry ["w", "h", "lua", "a.lua"] (.file .empty)) := by decide +kernel
  rcases List.mem_pair.mp copy with rfl | rfl
  · rw [link] at leads
    cases leads
  · rw [file] at leads
    cases leads
    rfl

/-- Installing what is not there removes the installed script of that name; installing a directory
succeeds. -/
theorem install_missing_removes :
    (stocked.files.exists? "gone/a.lua" = false ∧ stocked.files.isFile "h/lua/a.lua" = true ∧
      (stocked.install ⟨false, false, ["gone/a.lua"]⟩).files.hasEntry "h/lua/a.lua" = false) ∧
    (stocked.files.isFile "s/d.lua" = false ∧
      (stocked.install ⟨false, false, ["s/d.lua"]⟩).core.events = stocked.core.events ∧
      (stocked.install ⟨false, false, ["s/d.lua"]⟩).files.isDirectory "h/lua/d.lua" = true) := by
  decide +kernel

/-! ### Installing a file -/

/-- The tree in which the files of a batch are installed. -/
def prepared (e : Engine) : FileTree := (e.dirs.create e.files).1

private theorem extends_prepared (e : Engine) : e.prepared.Extends e.files :=
  e.files.createDirectories_extends e.dirs.autoload

/-- Linking and loading a script that was installed leaves its file where it is. -/
theorem holds_startInstalled {e : Engine} (h : e.Settled) (batch : Batch) {base : String}
    {lua : Location} {x : Entry} (held : e.dirs.Holds base e.files lua x)
    (apart : e.dirs.Apart base batch.autoload e.files lua) (hname : Path.IsName base)
    (target : String) (wasLoaded existed : Bool) :
    e.dirs.Holds base (startInstalled batch e base target wasLoaded existed).files lua x := by
  have linked : ∀ e' : Engine, e' = (if batch.autoload then e.linkInstalled base else e) →
      e'.Settled ∧ e.dirs.Holds base e'.files lua x := by
    rintro _ rfl
    split
    · next hl =>
      refine ⟨h.moves (upheld_deeds.settleFiles e _ _).moves, ?_⟩
      have made := held.linkAutoload hname (hl ▸ apart)
      unfold linkInstalled settleFiles
      split
      · next heq => rw [heq] at made; exact made
      · next heq => rw [heq] at made; exact made
    · exact ⟨h, held⟩
  obtain ⟨settled, held'⟩ := linked _ rfl
  unfold startInstalled
  dsimp only
  split
  · rw [(sameDisk_load settled target none).files]
    exact held'
  · exact held'

/-- Where a file is found after it was installed from a path that still leads to it. -/
theorem read_installFile {e : Engine} (h : e.Settled) (batch : Batch) {source base : String}
    {loc : Location} {content : ByteArray} (named : Path.fileName? source = some base)
    (apart : ∀ lua, e.files.resolve e.dirs.installed true = .ok (.entry lua .directory) →
      e.dirs.Apart base batch.autoload e.files lua)
    (left : (e.dirs.cleared e.environment base 2 e.files).resolve source false =
      .ok (.entry loc (.file content))) :
    (installFile batch e source).files.read (Path.join e.dirs.installed base) = .ok content ∨
      (installFile batch e source).files.read source = .ok content := by
  have hname := Path.isName_of_fileName? named
  have hnul : '\x00' ∉ base.toList := by
    intro hn
    exact (FileTree.resolve_ok_iff.mp left).1 (Path.mem_of_mem_fileName? named hn)
  have settled := h.moves (upheld_deeds.retire batch e base).moves
  obtain ⟨disk, -⟩ := retire_cases h batch base
  have less := e.dirs.extends_cleared e.environment base 2 e.files
  have off : ∀ lua, (e.dirs.cleared e.environment base 2 e.files).resolve e.dirs.installed true =
      .ok (.entry lua .directory) → e.dirs.Apart base batch.autoload
        (e.dirs.cleared e.environment base 2 e.files) lua := by
    intro lua hlua
    exact (apart lua (less.resolve hlua).1).anti less hlua
  unfold installFile
  rw [named]
  dsimp only
  -- Of the retirement only its files are needed: the cleared ones, whatever it has run.
  generalize retire batch e base = retired at settled disk ⊢
  have files : retired.1.files = e.dirs.cleared e.environment base 2 e.files := disk.files
  have dirs : retired.1.dirs = e.dirs := disk.dirs
  rw [dirs, files]
  rcases ScriptDirs.Apart.move off hname hnul left with
    ⟨error, failed⟩ | ⟨v, lua, moved, held, apart'⟩
  · refine .inr ?_
    rw [failed]
    dsimp only [updateCore]
    rw [FileTree.read, FileTree.resolve_follow (by simp) left]
    rfl
  · refine .inl ?_
    rw [moved]
    dsimp only
    have settled' : Settled { retired.1 with files := v } := settled.congr rfl rfl rfl rfl rfl rfl
    have same : Engine.dirs { retired.1 with files := v } = e.dirs := dirs
    have held' := holds_startInstalled settled' batch (same.symm ▸ held) (same.symm ▸ apart')
      hname (Path.join e.dirs.installed base) retired.2.1 retired.2.2
    rw [same] at held'
    exact held'.read hname hnul

/-- Installing from a path whose way the clean-up has cut leaves the tree as the clean-up left
it. -/
theorem files_installFile_missing {e : Engine} (h : e.Settled) (batch : Batch)
    {source base : String} (named : Path.fileName? source = some base)
    (gone : (e.dirs.cleared e.environment base 2 e.files).hasEntry source = false) :
    (installFile batch e source).files = e.dirs.cleared e.environment base 2 e.files := by
  obtain ⟨disk, -⟩ := retire_cases h batch base
  have files : (retire batch e base).1.files = e.dirs.cleared e.environment base 2 e.files :=
    disk.files
  unfold installFile
  rw [named]
  dsimp only
  generalize retire batch e base = retired at files ⊢
  rw [← files] at gone ⊢
  obtain ⟨error, failed⟩ :=
    FileTree.move_missing gone (Path.join retired.1.dirs.installed base)
  rw [failed]
  rfl

/-- Before a file is installed, its directories cannot be made, or the clean-up takes away nothing
that its path leads over, or the clean-up happens to leave the same content in its new place. -/
def Spares (e : Engine) (source base : String) (content : ByteArray) : Prop :=
  (e.dirs.create e.files).2 ≠ .ok () ∨
    (∀ l ∈ e.dirs.clearing e.environment base 2 e.prepared, l ∉ e.prepared.way source false) ∨
    (e.dirs.cleared e.environment base 2 e.prepared).read (Path.join e.dirs.installed base) =
      .ok content

/-- A file that is installed can be read in its old place or in the new one afterwards only if it
is spared, and then it can, unless installing it changes the way to the directory of installed
scripts. -/
theorem install_keeps_source {e : Engine} (h : e.Settled) {batch : Batch}
    {source base : String} {loc : Location} {content : ByteArray}
    (one : batch.names = [source]) (named : Path.fileName? source = some base)
    (regular : e.files.resolve source false = .ok (.entry loc (.file content))) :
    ((e.install batch).files.read (Path.join e.dirs.installed base) = .ok content ∨
        (e.install batch).files.read source = .ok content → e.Spares source base content) ∧
      ((∀ lua, e.prepared.resolve e.dirs.installed true = .ok (.entry lua .directory) →
          e.dirs.Apart base batch.autoload e.prepared lua) →
        e.Spares source base content →
        (e.install batch).files.read (Path.join e.dirs.installed base) = .ok content ∨
          (e.install batch).files.read source = .ok content) := by
  have there := (e.extends_prepared.resolve regular).1
  unfold install Spares prepared at *
  rcases hc : e.dirs.create e.files with ⟨t, error | ⟨⟩⟩
  · rw [hc] at there
    refine ⟨fun _ => .inl (by simp), fun _ _ => .inr ?_⟩
    dsimp only [updateCore]
    rw [FileTree.read, FileTree.resolve_follow (by simp) there]
    rfl
  · rw [hc] at there
    have settled : Settled { e with files := t } := h.congr rfl rfl rfl rfl rfl rfl
    have spared := e.dirs.resolve_cleared_iff e.environment base (n := 2) there
    simp only [one, List.foldl_cons, List.foldl_nil, ne_eq, not_true, false_or]
    by_cases intact : ∀ l ∈ e.dirs.clearing e.environment base 2 t, l ∉ t.way source false
    · refine ⟨fun _ => .inl intact, fun apart _ => ?_⟩
      exact read_installFile settled batch named apart (spared.mpr intact)
    · -- Once its way is cut, the source cannot be read any more.
      have gone : (e.dirs.cleared e.environment base 2 t).hasEntry source = false := by
        rw [FileTree.hasEntry_eq_false_iff]
        push Not at intact
        obtain ⟨l, hl, hw⟩ := intact
        refine FileTree.not_entry_of_mem_way (e.dirs.extends_cleared e.environment base 2 t) hw ?_
        rw [ScriptDirs.get?_cleared, if_pos hl]
      have files := files_installFile_missing settled batch named gone
      have unreadable : (e.dirs.cleared e.environment base 2 t).read source ≠ .ok content :=
        FileTree.read_ne_of_hasEntry_eq_false gone content
      rw [files]
      constructor
      · rintro (target | source)
        · exact .inr target
        · exact absurd source unreadable
      · rintro - (all | target)
        · exact absurd all intact
        · exact .inl target

/-- The case of a new version of an installed script. -/
theorem install_keeps_source_stocked :
    let e := stocked.install ⟨false, true, ["s/a.lua"]⟩
    e.files.read (Path.join stocked.dirs.installed "a.lua") = .ok ⟨#[10]⟩ ∨
      e.files.read "s/a.lua" = .ok ⟨#[10]⟩ := by
  have installed : stocked.prepared.resolve stocked.dirs.installed true =
      .ok (.entry ["w", "h", "lua"] .directory) := by decide +kernel
  have autoload : stocked.prepared.resolve stocked.dirs.autoload true =
      .ok (.entry ["w", "h", "lua", "autoload"] .directory) := by decide +kernel
  have named : Path.fileName? "s/a.lua" = some "a.lua" := by decide +kernel
  have regular : stocked.files.resolve "s/a.lua" false =
      .ok (.entry ["w", "s", "a.lua"] (.file ⟨#[10]⟩)) := by decide +kernel
  refine (install_keeps_source settled_stocked rfl named regular).2 ?_
    (.inr (.inl (by decide +kernel)))
  intro lua hlua
  obtain rfl : lua = ["w", "h", "lua"] := by simpa [installed] using hlua.symm
  refine ⟨by decide +kernel, fun _ auto hauto => ?_, fun _ => by decide +kernel⟩
  obtain rfl : auto = ["w", "h", "lua", "autoload"] := by simpa [autoload] using hauto.symm
  exact ⟨by decide, by decide +kernel⟩

/-- A script in the home is found as a copy of itself, so installing it removes it. -/
theorem install_loses_source :
    stocked.files.read "h/x.lua" = .ok .empty ∧
      (stocked.install ⟨false, false, ["h/x.lua"]⟩).files.read "h/x.lua" = .error .notFound ∧
      (stocked.install ⟨false, false, ["h/x.lua"]⟩).files.read "h/lua/x.lua" =
        .error .notFound := by
  decide +kernel

end LuaHost.Engine
