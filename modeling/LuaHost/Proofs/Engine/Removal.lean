import LuaHost.Proofs.Engine.Install
import LuaHost.Proofs.Engine.Links

/-!
# Removing scripts

A batch of removals takes away what the search for its names finds, and changes nothing else in the
tree. The search expands a tilde and puts the name after three directories, unread, so that only a
plain name is sure to be found inside the home.
-/

namespace LuaHost.Engine

variable {e : Engine} {batch : Batch}

/-- Removing the scripts of a name touches the tree as the clean-up of its copies does. -/
theorem sameDisk_removeFile (h : e.Settled) (batch : Batch) (name : String) :
    { e with files := e.dirs.cleared e.environment name 2 e.files }.SameDisk
      (removeFile batch e name) := by
  have retired := (retire_cases h batch name).1
  unfold removeFile
  dsimp only
  split
  · exact retired
  · exact retired.trans (.of_kept (kept_complain _ _))

/-- A removal leaves the engine settled. -/
theorem Settled.removeFile (h : e.Settled) (batch : Batch) (name : String) :
    (removeFile batch e name).Settled := h.moves (upheld_deeds.removeFile batch e name).moves

/-- An engine after some removals: entries were at most taken away from the tree, and the
surroundings are the same. -/
structure Thinned (e e' : Engine) : Prop where
  settled : e'.Settled
  files : e.files.Extends e'.files
  environment : e'.environment = e.environment
  dirs : e'.dirs = e.dirs

private theorem thinned_removeFiles (batch : Batch) (names : List String) {e : Engine}
    (h : e.Settled) :
    e.Thinned (names.foldl (removeFile batch) e) := by
  induction names generalizing e with
  | nil => exact ⟨h, .refl _, rfl, rfl⟩
  | cons name names ih =>
    have disk := sameDisk_removeFile h batch name
    have rest := ih (h.removeFile batch name)
    have less : e.files.Extends (Engine.removeFile batch e name).files := by
      rw [disk.files]
      exact e.dirs.extends_cleared e.environment name 2 e.files
    exact ⟨rest.settled, less.trans rest.files, rest.environment.trans disk.environment,
      rest.dirs.trans disk.dirs⟩

/-- What a removal changes in the tree is taken away, by the clean-up of one of its names when its
turn came. -/
theorem exists_clearing (h : e.Settled) {loc : Location}
    (changed : (e.remove batch).files.get? loc ≠ e.files.get? loc) :
    (e.remove batch).files.get? loc = none ∧
      ∃ name ∈ batch.names, ∃ t, e.files.Extends t ∧
        loc ∈ e.dirs.clearing e.environment name 2 t := by
  obtain ⟨front, name, rest, names, turn⟩ := exists_turn changed
  have before := thinned_removeFiles batch front h
  have disk := sameDisk_removeFile before.settled batch name
  have cleared := disk.files
  dsimp only at cleared
  rw [before.dirs, before.environment] at cleared
  rw [cleared, ScriptDirs.get?_cleared] at turn
  have taken : loc ∈ e.dirs.clearing e.environment name 2
      (front.foldl (removeFile batch) e).files := by
    by_contra other
    rw [if_neg other] at turn
    exact turn rfl
  constructor
  · have after := thinned_removeFiles batch rest (before.settled.removeFile batch name)
    have whole : e.remove batch = rest.foldl (removeFile batch)
        (removeFile batch (front.foldl (removeFile batch) e) name) := by
      rw [remove, names, List.foldl_append, List.foldl_cons]
    cases there : (e.remove batch).files.get? loc with
    | none => rfl
    | some x =>
      rw [whole] at there
      have still := after.files.get? loc x there
      rw [cleared, ScriptDirs.get?_cleared, if_pos taken] at still
      cases still
  · exact ⟨name, by simp [names], _, before.files, taken⟩

/-- A removal only takes files and links away, each of them found in the tree before as a copy of
one of its names. Where the script directories lie below a home, and every name is absolute or a
plain one without a tilde in front, each of them is an entry of its name in the script
directories. -/
theorem remove_changes (h : e.Settled) {loc : Location}
    (changed : (e.remove batch).files.get? loc ≠ e.files.get? loc) :
    (e.remove batch).files.get? loc = none ∧
      (∃ name ∈ batch.names, ∃ path ∈ e.dirs.copies e.environment name, ∃ x, x ≠ .directory ∧
        e.files.locate path = .ok (.entry loc x)) ∧
      ∀ root, e.dirs.LaidOut e.files root →
        (∀ name ∈ batch.names, Path.isAbsolute name = true ∨
          Path.IsName name ∧ name.toList.head? ≠ some '~') →
        ∃ name ∈ batch.names, loc ∈ ScriptDirs.places root name := by
  obtain ⟨gone, name, mem, t, less, taken⟩ := exists_clearing h changed
  obtain ⟨path, copy, x, hne, leads⟩ := e.dirs.locate_of_mem_clearing e.environment name taken
  have found : e.files.locate path = .ok (.entry loc x) := (less.resolve leads).1
  refine ⟨gone, ⟨name, mem, path, copy, x, hne, found⟩, ?_⟩
  intro root laid plain
  refine ⟨name, mem, ?_⟩
  rcases plain name mem with absolute | ⟨hname, relative⟩
  · rw [ScriptDirs.clearing_absolute _ _ _ _ _ absolute] at taken
    cases taken
  · exact laid.mem_places e.environment hname relative copy found

/-- The script directories of that engine are where they belong. -/
theorem laidOut_twins : twins.dirs.LaidOut twins.files ["w", "h"] :=
  ⟨by decide +kernel, by decide +kernel, by decide +kernel⟩

/-- The case of an installed script that is removed. -/
theorem remove_changes_twins :
    (twins.remove ⟨false, false, ["a.lua"]⟩).files.get? ["w", "h", "lua", "a.lua"] = none ∧
      ∃ name ∈ ["a.lua"], ["w", "h", "lua", "a.lua"] ∈ ScriptDirs.places ["w", "h"] name := by
  have settled : twins.Settled := reachable_bare.settled.congr rfl rfl rfl rfl rfl rfl
  have changed : (twins.remove ⟨false, false, ["a.lua"]⟩).files.get? ["w", "h", "lua", "a.lua"] ≠
      twins.files.get? ["w", "h", "lua", "a.lua"] := by decide +kernel
  have removed := remove_changes settled changed
  refine ⟨removed.1, removed.2.2 _ laidOut_twins ?_⟩
  intro name mem
  obtain rfl := List.mem_singleton.mp mem
  exact .inr ⟨⟨by decide, by decide, by decide, by decide⟩, by decide⟩

/-- The twins, with another file beside their home. -/
def neighboured : Engine := { twins with files := twins.files.put ["w", "x.lua"] (.file .empty) }

/-- A name with dots takes a file outside the home away. -/
theorem remove_reaches_out :
    neighboured.dirs.LaidOut neighboured.files ["w", "h"] ∧
      neighboured.files.isFile "x.lua" = true ∧
      (neighboured.remove ⟨false, false, ["../x.lua"]⟩).files.hasEntry "x.lua" = false ∧
      ¬["w", "h"] <+: ["w", "x.lua"] := by
  refine ⟨⟨?_, ?_, ?_⟩, ?_, ?_, ?_⟩ <;> decide +kernel

end LuaHost.Engine
