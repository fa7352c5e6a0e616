import LuaHost.Proofs.Engine.Reachable
import LuaHost.Proofs.Files.ScriptDirs

/-!
# Updating autoload links

A name of an autoload batch is put after two directories, unread: after that of installed scripts to
see whether there is such a script, and after the autoload directory to find the entry that is made
or removed. A plain file name stays in both. A name with dots or slashes may lead anywhere, and
what it leads to is what changes.
-/

namespace LuaHost.Engine

variable {e : Engine} {batch : Batch} {loc : Location}

/-! ### One name after the other -/

/-- What changes in the tree over a list of names changes when the turn of one of them comes. -/
theorem exists_turn {f : Engine → String → Engine} {names : List String}
    (changed : (names.foldl f e).files.get? loc ≠ e.files.get? loc) :
    ∃ front name rest, names = front ++ name :: rest ∧
      (f (front.foldl f e) name).files.get? loc ≠ (front.foldl f e).files.get? loc := by
  induction names generalizing e with
  | nil => exact absurd rfl changed
  | cons name names ih =>
    by_cases first : (f e name).files.get? loc = e.files.get? loc
    · rw [List.foldl_cons, ← first] at changed
      obtain ⟨front, name', rest, rfl, later⟩ := ih changed
      exact ⟨name :: front, name', rest, rfl, later⟩
    · exact ⟨[], name, names, rfl, first⟩

private theorem files_settleFiles (e : Engine) (result : FileTree.Result)
    (complaint : OsError → String) :
    (e.settleFiles result complaint).files = result.1 := by
  unfold settleFiles
  split <;> rfl

/-- What becomes of files makes no difference to the scripts. -/
theorem registry_settleFiles (e : Engine) (result : FileTree.Result)
    (complaint : OsError → String) :
    (e.settleFiles result complaint).core.registry = e.core.registry := by
  unfold settleFiles
  split <;> rfl

private theorem dirs_settleFiles (e : Engine) (result : FileTree.Result)
    (complaint : OsError → String) :
    (e.settleFiles result complaint).dirs = e.dirs := by
  unfold settleFiles
  split <;> rfl

/-- The link of a name is updated if there is a script of that name. -/
theorem files_updateLink (batch : Batch) (e : Engine) (name : String) :
    (updateLink batch e name).files =
      if e.files.exists? (Path.join e.dirs.installed name) then
        e.dirs.relinked batch.autoload e.files name
      else e.files := by
  unfold updateLink
  split
  · rw [files_settleFiles, ScriptDirs.relinked]
  · rfl

private theorem dirs_updateLink (batch : Batch) (e : Engine) (name : String) :
    (updateLink batch e name).dirs = e.dirs := by
  unfold updateLink
  split
  · exact dirs_settleFiles _ _ _
  · rfl

private theorem dirs_updateLinks (batch : Batch) (names : List String) (e : Engine) :
    (names.foldl (updateLink batch) e).dirs = e.dirs := by
  induction names generalizing e with
  | nil => rfl
  | cons name names ih => rw [List.foldl_cons, ih, dirs_updateLink]

/-- While only plain names have had their turn, the autoload directory is where it was. -/
theorem resolve_autoload_updateLinks (batch : Batch) {names : List String}
    (plain : ∀ name ∈ names, Path.IsName name) {auto : Location}
    (hauto : e.files.resolve e.dirs.autoload true = .ok (.entry auto .directory))
    (off : ∀ name ∈ names, auto ++ [name] ∉ e.files.way e.dirs.autoload true) :
    (names.foldl (updateLink batch) e).files.resolve e.dirs.autoload true =
        .ok (.entry auto .directory) ∧
      (names.foldl (updateLink batch) e).files.way e.dirs.autoload true =
        e.files.way e.dirs.autoload true := by
  induction names generalizing e with
  | nil => exact ⟨hauto, rfl⟩
  | cons name names ih =>
    have first : (updateLink batch e name).files.resolve e.dirs.autoload true =
          .ok (.entry auto .directory) ∧
        (updateLink batch e name).files.way e.dirs.autoload true =
          e.files.way e.dirs.autoload true := by
      rw [files_updateLink]
      split
      · next there =>
        exact (ScriptDirs.relinked_in_place batch.autoload (plain name List.mem_cons_self) there
          hauto (off name List.mem_cons_self)).2
      · exact ⟨hauto, rfl⟩
    rw [← dirs_updateLink batch e name] at first ⊢
    have rest := ih (e := updateLink batch e name)
      (fun n hn => plain n (List.mem_cons_of_mem _ hn)) first.1
      (fun n hn => by
        rw [first.2, dirs_updateLink]
        exact off n (List.mem_cons_of_mem _ hn))
    exact ⟨rest.1, rest.2.trans first.2⟩

/-! ### A batch -/

/-- What a batch changes in the tree is what the link of one of its names stands for when its turn
comes. For a plain name that is its entry in the autoload directory, or the directory itself where
there was none. A batch of plain names changes entries of the names in the autoload directory only,
where that directory is found without going through one of them. -/
theorem updateLinks_changes
    (changed : (e.updateLinks batch).files.get? loc ≠ e.files.get? loc) :
    (∃ front name rest, batch.names = front ++ name :: rest ∧
      let t := (front.foldl (updateLink batch) e).files
      e.dirs.Relinks batch.autoload t name loc ∧
        (Path.IsName name → ∃ auto,
          (e.dirs.linking batch.autoload t).resolve e.dirs.autoload true =
              .ok (.entry auto .directory) ∧
            (loc = auto ++ [name] ∨ loc = auto ∧
              ∀ other, t.resolve e.dirs.autoload true ≠ .ok (.entry other .directory)))) ∧
      ∀ auto, e.files.resolve e.dirs.autoload true = .ok (.entry auto .directory) →
        (∀ name ∈ batch.names,
          Path.IsName name ∧ auto ++ [name] ∉ e.files.way e.dirs.autoload true) →
        ∃ name ∈ batch.names, loc = auto ++ [name] := by
  obtain ⟨front, name, rest, names, turn⟩ := exists_turn changed
  have dirs := dirs_updateLinks batch front e
  rw [files_updateLink, dirs] at turn
  split at turn
  · next there =>
    constructor
    · have relinks := ScriptDirs.relinked_changed turn
      have plain (hname : Path.IsName name) :=
        ScriptDirs.relinked_changed_name hname there turn
      exact ⟨front, name, rest, names, relinks, plain⟩
    · intro auto hauto plain
      have before : ∀ n ∈ front, n ∈ batch.names := by
        intro n hn
        rw [names]
        exact List.mem_append_left _ hn
      have mem : name ∈ batch.names := by simp [names]
      obtain ⟨still, ways⟩ := resolve_autoload_updateLinks batch
        (fun n hn => (plain n (before n hn)).1) hauto (fun n hn => (plain n (before n hn)).2)
      have off : auto ++ [name] ∉ (front.foldl (updateLink batch) e).files.way
          e.dirs.autoload true := by
        rw [ways]
        exact (plain name mem).2
      have in_place :=
        ScriptDirs.relinked_in_place batch.autoload (plain name mem).1 there still off
      exact ⟨name, mem, in_place.1 loc turn⟩
  · exact absurd rfl turn

/-- An engine with an installed script that is linked, and a file of the same name in its home. -/
def twins : Engine :=
  let tree := (FileTree.empty ["w"]).put ["w", "h"] .directory
  let tree := tree.put ["w", "h", "lua"] .directory
  let tree := tree.put ["w", "h", "lua", "autoload"] .directory
  let tree := tree.put ["w", "h", "a.lua"] (.file .empty)
  let tree := tree.put ["w", "h", "lua", "a.lua"] (.file .empty)
  let tree := tree.put ["w", "h", "lua", "autoload", "a.lua"] (.link "../a.lua")
  { bare with files := tree }

/-- The case of a link that is removed and a plain name. -/
theorem updateLinks_changes_twins :
    let loc := ["w", "h", "lua", "autoload", "a.lua"]
    (twins.updateLinks ⟨false, false, ["a.lua"]⟩).files.get? loc = none ∧
      ∃ name ∈ ["a.lua"], loc = ["w", "h", "lua", "autoload"] ++ [name] := by
  have gone : (twins.updateLinks ⟨false, false, ["a.lua"]⟩).files.get?
      ["w", "h", "lua", "autoload", "a.lua"] = none :=
    Option.isNone_iff_eq_none.mp (by decide +kernel)
  have changed : (twins.updateLinks ⟨false, false, ["a.lua"]⟩).files.get?
      ["w", "h", "lua", "autoload", "a.lua"] ≠
        twins.files.get? ["w", "h", "lua", "autoload", "a.lua"] := by
    rw [gone]
    decide +kernel
  have autoload : twins.files.resolve twins.dirs.autoload true =
      .ok (.entry ["w", "h", "lua", "autoload"] .directory) := by decide +kernel
  have off : ["w", "h", "lua", "autoload"] ++ ["a.lua"] ∉
      twins.files.way twins.dirs.autoload true := by decide +kernel
  have confined := (updateLinks_changes changed).2 _ autoload
  constructor
  · exact gone
  · apply confined
    intro name mem
    obtain rfl := List.mem_singleton.mp mem
    exact ⟨⟨by decide, by decide, by decide, by decide⟩, off⟩

/-- A name that leads out of the autoload directory takes the installed script away. -/
theorem updateLinks_reach_scripts :
    twins.files.isFile "h/lua/a.lua" = true ∧
      (twins.updateLinks ⟨false, false, ["../a.lua"]⟩).files.hasEntry "h/lua/a.lua" = false := by
  decide +kernel

end LuaHost.Engine
