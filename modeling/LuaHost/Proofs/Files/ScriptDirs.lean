import LuaHost.Proofs.Files.Operations
import LuaHost.ScriptDirs

/-!
# The script directories in a tree

Which entries the removal of a script's copies takes away, why making the autoload link of a script
leaves the script itself alone, and what making or removing the link may change. A name is put after
the path of a directory unread, so that only for a plain name the entry in question is sure to be
in that directory.
-/

namespace LuaHost

namespace FileTree

private theorem extends_foldl_erase {locs : List Location} (h : ∀ loc ∈ locs, loc ≠ [])
    (t : FileTree) :
    t.Extends (locs.foldl erase t) := by
  induction locs generalizing t with
  | nil => exact .refl t
  | cons loc locs ih =>
    have first := t.extends_erase (h loc List.mem_cons_self)
    exact first.trans (ih (fun l hl => h l (List.mem_cons_of_mem _ hl)) _)

private theorem get?_foldl_erase {locs : List Location} (h : ∀ loc ∈ locs, loc ≠ []) (t : FileTree)
    (loc : Location) :
    (locs.foldl erase t).get? loc = if loc ∈ locs then none else t.get? loc := by
  induction locs generalizing t with
  | nil => simp
  | cons l locs ih =>
    rw [List.foldl_cons, ih fun l hl => h l (List.mem_cons_of_mem _ hl),
      get?_erase t (h l List.mem_cons_self)]
    by_cases hl : loc ∈ locs <;> by_cases he : loc = l <;> simp [hl, he]

end FileTree

namespace ScriptDirs

variable (d : ScriptDirs) (env : Environment) (name : String)

/-! ### Copies of a script -/

/-- The paths where a copy of a script is looked for. -/
def copies : List String :=
  if name.toList.head? = some '~' then [env.expandTilde name]
  else [d.autoload, d.installed, d.home].map (Path.join · name)

/-- A script is found at one of the paths, or its name is the path. -/
theorem search_mem (t : FileTree) :
    d.search env t name ∈ d.copies env name ∨ d.search env t name = name := by
  unfold search copies
  split
  · exact .inl (List.mem_singleton_self _)
  · dsimp only
    cases hf : ([d.autoload, d.installed, d.home].map (Path.join · name)).find? t.exists? with
    | none => exact .inr rfl
    | some path => exact .inl (List.mem_of_find?_eq_some hf)

/-- The paths where an installed copy of a script is. -/
def installedCopies : List String := [d.autoload, d.installed].map (Path.join · name)

variable {name} in
/-- A script without a copy in the home is found at a path of an installed copy, or its name is the
path. -/
theorem search_mem_installedCopies {t : FileTree} (relative : name.toList.head? ≠ some '~')
    (absent : t.exists? (Path.join d.home name) = false) :
    d.search env t name ∈ d.installedCopies name ∨ d.search env t name = name := by
  simp only [search, if_neg relative, installedCopies, List.map_cons, List.map_nil,
    List.find?_cons, List.find?_nil, absent]
  cases t.exists? (Path.join d.autoload name) <;> cases t.exists? (Path.join d.installed name) <;>
    simp

/-- The locations that are taken away when the copy found first is removed as often as given. -/
def clearing : Nat → FileTree → List Location
  | 0, _ => []
  | n + 1, t =>
    let path := d.search env t name
    if Path.same path name then []
    else (t.removed? path).elim [] fun loc => loc :: clearing n (t.erase loc)

/-- At most as many copies are taken away as removals are made. -/
theorem length_clearing_le (n : Nat) (t : FileTree) : (d.clearing env name n t).length ≤ n := by
  induction n generalizing t with
  | zero => exact Nat.le_refl 0
  | succ n ih =>
    unfold clearing
    dsimp only
    split
    · exact Nat.zero_le _
    · cases t.removed? (d.search env t name) with
      | none => exact Nat.zero_le _
      | some loc => exact Nat.succ_le_succ (ih _)

/-- Only files and links are taken away, and only at paths where the script is found while entries
are taken away. -/
theorem locate_of_mem_clearing_of {paths : List String} {n : Nat} {t : FileTree} {loc : Location}
    (found : ∀ u, t.Extends u → d.search env u name ∈ paths ∨ d.search env u name = name)
    (h : loc ∈ d.clearing env name n t) :
    ∃ path ∈ paths, ∃ e, e ≠ .directory ∧ t.locate path = .ok (.entry loc e) := by
  induction n generalizing t with
  | zero => cases h
  | succ n ih =>
    unfold clearing at h
    dsimp only at h
    split at h
    · cases h
    · next hsame =>
      cases hfirst : t.removed? (d.search env t name) with
      | none =>
        rw [hfirst] at h
        cases h
      | some first =>
        rw [hfirst] at h
        rcases List.mem_cons.mp h with rfl | h
        · obtain ⟨e, hne, hl⟩ := FileTree.locate_of_removed? hfirst
          rcases found t (.refl t) with hm | hm
          · exact ⟨_, hm, e, hne, hl⟩
          · simp [hm, Path.same] at hsame
        · have more := t.extends_erase (FileTree.ne_nil_of_removed? hfirst)
          obtain ⟨path, hp, e, hne, hl⟩ := ih (fun u less => found u (more.trans less)) h
          exact ⟨path, hp, e, hne, (more.resolve hl).1⟩

/-- Only files and links that are copies of the script are taken away. -/
theorem locate_of_mem_clearing {n : Nat} {t : FileTree} {loc : Location}
    (h : loc ∈ d.clearing env name n t) :
    ∃ path ∈ d.copies env name, ∃ e, e ≠ .directory ∧ t.locate path = .ok (.entry loc e) :=
  d.locate_of_mem_clearing_of env name (fun u _ => d.search_mem env name u) h

variable {name} in
/-- Without a copy in the home only files and links that are installed copies are taken away. -/
theorem locate_of_mem_clearing_installed {n : Nat} {t : FileTree} {loc : Location}
    (relative : name.toList.head? ≠ some '~')
    (absent : t.exists? (Path.join d.home name) = false) (h : loc ∈ d.clearing env name n t) :
    ∃ path ∈ d.installedCopies name, ∃ e, e ≠ .directory ∧
      t.locate path = .ok (.entry loc e) :=
  d.locate_of_mem_clearing_of env name (fun _ less =>
    d.search_mem_installedCopies env relative (less.exists?_eq_false absent)) h

private theorem ne_nil_of_mem_clearing {n : Nat} {t : FileTree} {loc : Location}
    (h : loc ∈ d.clearing env name n t) : loc ≠ [] := by
  obtain ⟨path, -, e, hne, hl⟩ := d.locate_of_mem_clearing env name h
  exact FileTree.ne_nil_of_get? (FileTree.resolve_stores hl hne) hne

/-- The tree without the copies that are taken away. -/
def cleared (n : Nat) (t : FileTree) : FileTree := (d.clearing env name n t).foldl .erase t

/-- Nothing is taken away when the name itself is what is found, or when that cannot be
removed. -/
theorem cleared_stop {n : Nat} {t : FileTree}
    (h : Path.same (d.search env t name) name = true ∨ t.removed? (d.search env t name) = none) :
    d.cleared env name (n + 1) t = t := by
  have none_taken : d.clearing env name (n + 1) t = [] := by
    rcases h with h | h
    · simp only [clearing, h, if_true]
    · simp only [clearing, h, Option.elim_none, ite_self]
  rw [cleared, none_taken]
  rfl

/-- What is found first is taken away first. -/
theorem cleared_succ {n : Nat} {t : FileTree} {loc : Location}
    (hsame : ¬Path.same (d.search env t name) name = true)
    (h : t.removed? (d.search env t name) = some loc) :
    d.cleared env name (n + 1) t = d.cleared env name n (t.erase loc) := by
  simp only [cleared, clearing, hsame, h, Option.elim_some]
  rfl

/-- Just the copies are missing. -/
theorem get?_cleared (n : Nat) (t : FileTree) (loc : Location) :
    (d.cleared env name n t).get? loc =
      if loc ∈ d.clearing env name n t then none else t.get? loc :=
  FileTree.get?_foldl_erase (fun _ hl => d.ne_nil_of_mem_clearing env name hl) t loc

/-- Nothing is added, and no other entry is changed. -/
theorem extends_cleared (n : Nat) (t : FileTree) : t.Extends (d.cleared env name n t) :=
  FileTree.extends_foldl_erase (fun _ hl => d.ne_nil_of_mem_clearing env name hl) t

/-- A path still leads to its entry exactly when nothing on its way is taken away. -/
theorem resolve_cleared_iff {n : Nat} {t : FileTree} {path : String} {last : Bool}
    {loc : Location} {e : Entry} (h : t.resolve path last = .ok (.entry loc e)) :
    (d.cleared env name n t).resolve path last = .ok (.entry loc e) ↔
      ∀ l ∈ d.clearing env name n t, l ∉ t.way path last := by
  have more := d.extends_cleared env name n t
  constructor
  · intro hc l hl hw
    refine FileTree.not_entry_of_mem_way more hw ?_ loc e hc
    rw [get?_cleared, if_pos hl]
  · intro hn
    rw [← h]
    refine (FileTree.resolve_congr more.workingDirectory.symm ?_).1
    intro l hl
    rw [get?_cleared, if_neg fun hc => hn l hc hl]

/-- An absolute name is no copy of anything but itself. -/
theorem search_absolute (t : FileTree) (absolute : Path.isAbsolute name = true) :
    d.search env t name = name := by
  have head : name.toList.head? = some '/' := by simpa [Path.isAbsolute] using absolute
  have joined (base : String) : Path.join base name = name := by
    simp [Path.join, absolute]
  rcases d.search_mem env name t with copy | same
  · simpa [copies, head, joined] using copy
  · exact same

/-- Of a script with an absolute path no copy is taken away. -/
theorem clearing_absolute (n : Nat) (t : FileTree) (absolute : Path.isAbsolute name = true) :
    d.clearing env name n t = [] := by
  cases n with
  | zero => rfl
  | succ n => simp [clearing, d.search_absolute env name t absolute, Path.same]

/-! ### The layout of the directories -/

/-- The directory of installed scripts has a plain name. -/
theorem isName_lua : Path.IsName "lua" := ⟨by decide, by decide, by decide, by decide⟩

/-- The autoload directory has a plain name. -/
theorem isName_autoload : Path.IsName "autoload" := ⟨by decide, by decide, by decide, by decide⟩

/-- The path of the installed scripts is not empty. -/
theorem installed_ne_empty : d.installed ≠ "" := by
  by_cases hh : d.home = ""
  · simp [installed, Path.join, hh]
  · exact isName_lua.join_ne_empty hh

/-- The path of the autoload directory is not empty. -/
theorem autoload_ne_empty : d.autoload ≠ "" :=
  isName_autoload.join_ne_empty d.installed_ne_empty

/-- What installing a script of a name changes is off the way to the directory of installed scripts:
the entry of the name there and, where it is linked, the autoload entry of the name, also when the
autoload directory has to be made anew. The two entries are not the same. -/
structure Apart (linked : Bool) (t : FileTree) (lua : Location) : Prop where
  off_target : lua ++ [name] ∉ t.way d.installed true
  off_link : linked = true → ∀ auto, t.resolve d.autoload true = .ok (.entry auto .directory) →
    auto ≠ lua ∧ auto ++ [name] ∉ t.way d.installed true
  off_new_link : linked = true → lua ++ ["autoload", name] ∉ t.way d.installed true

/-- The directory of installed scripts is at a location and holds an entry under a name. -/
structure Holds (t : FileTree) (lua : Location) (e : Entry) : Prop where
  installed : t.resolve d.installed true = .ok (.entry lua .directory)
  target : t.get? (lua ++ [name]) = some e

variable {d} {name} {t : FileTree} {lua : Location}

private theorem Holds.mono {u : FileTree} {e : Entry} (h : d.Holds name t lua e)
    (more : u.Extends t) :
    d.Holds name u lua e := ⟨(more.resolve h.installed).1, more.get? _ _ h.target⟩

/-- Removing the autoload entry of a script leaves the script itself alone. -/
theorem Holds.remove_link {e : Entry} (h : d.Holds name t lua e) (hname : Path.IsName name)
    (off : ∀ auto, t.resolve d.autoload true = .ok (.entry auto .directory) →
      auto ≠ lua ∧ auto ++ [name] ∉ t.way d.installed true) :
    d.Holds name (t.remove (Path.join d.autoload name)).1 lua e := by
  rcases t.remove_cases (Path.join d.autoload name) with ⟨_, -, hr⟩ | ⟨loc, hloc, hr⟩
  · rw [hr]
    exact h
  · rw [hr]
    have hne := FileTree.ne_nil_of_removed? hloc
    obtain ⟨x, -, hl⟩ := FileTree.resolve_of_removed? hloc
    obtain ⟨auto, hauto, there⟩ :=
      FileTree.location_of_resolve_join hname d.autoload_ne_empty hl
    obtain rfl : loc = auto ++ [name] := there
    obtain ⟨apart, off_way⟩ := off auto hauto
    have same : (t.erase (auto ++ [name])).workingDirectory = t.workingDirectory := rfl
    constructor
    · rw [← h.installed]
      refine (FileTree.resolve_congr same fun l hl => ?_).1
      have off_link : l ≠ auto ++ [name] := by
        rintro rfl
        exact off_way hl
      rw [FileTree.get?_erase t hne, if_neg off_link]
    · have off_target : lua ++ [name] ≠ auto ++ [name] := by
        intro heq
        exact apart (List.append_cancel_right heq).symm
      rw [FileTree.get?_erase t hne, if_neg off_target]
      exact h.target

/-- Where the directory of installed scripts is there, at most the autoload directory in it has to
be made. -/
theorem createDirectories_autoload (h : t.resolve d.installed true = .ok (.entry lua .directory)) :
    (t.createDirectories d.autoload).1 = t ∨
      (t.get? (lua ++ ["autoload"]) = none ∧
        (t.createDirectories d.autoload).1 = t.put (lua ++ ["autoload"]) .directory ∧
        (t.createDirectories d.autoload).1.resolve d.autoload true =
          .ok (.entry (lua ++ ["autoload"]) .directory)) := by
  have more := t.createDirectories_extends d.autoload
  rcases FileTree.createDirectories_join isName_autoload (by decide) d.installed_ne_empty h with
    ⟨free, made⟩ | same
  · refine .inr ⟨free, made, ?_⟩
    have there : (t.createDirectories d.autoload).1.get? (lua ++ ["autoload"]) =
        some .directory := by
      rw [autoload, made, FileTree.get?_put _ (by simp), if_pos rfl]
    have into := FileTree.resolve_join true isName_autoload (by decide) d.installed_ne_empty
      (by simp [there]) (more.resolve h).1
    rw [FileTree.placeAt, there] at into
    exact into
  · exact .inl same

/-- Making a link makes its directory first, may take the entry away that is in its place, and may
then put the link there. -/
theorem linkAutoload_cases (d : ScriptDirs) (t : FileTree) (name : String) :
    ∃ u, (u = (t.createDirectories d.autoload).1 ∨
        u = ((t.createDirectories d.autoload).1.remove (Path.join d.autoload name)).1) ∧
      ((d.linkAutoload t name).1 = u ∨ (d.linkAutoload t name).1 =
        (u.makeLink (Path.join ".." name) (Path.join d.autoload name)).1) := by
  unfold linkAutoload
  rcases t.createDirectories d.autoload with ⟨made, error | ⟨⟩⟩
  · exact ⟨made, .inl rfl, .inl rfl⟩
  · dsimp only
    generalize hr : (if made.hasEntry (Path.join d.autoload name) then
      made.remove (Path.join d.autoload name) else (made, .ok ())) = removal
    have cleared : removal.1 = made ∨
        removal.1 = (made.remove (Path.join d.autoload name)).1 := by
      rw [← hr]
      split
      · exact .inr rfl
      · exact .inl rfl
    rcases removal with ⟨u, error | ⟨⟩⟩
    · exact ⟨u, cleared, .inl rfl⟩
    · exact ⟨u, cleared, .inr rfl⟩

/-- Making the autoload link of a script leaves the script itself alone. -/
theorem Holds.linkAutoload {e : Entry} (h : d.Holds name t lua e) (hname : Path.IsName name)
    (apart : d.Apart name true t lua) :
    d.Holds name (d.linkAutoload t name).1 lua e := by
  have more := t.createDirectories_extends d.autoload
  have held := h.mono more
  have ways := (more.resolve h.installed).2
  -- Only the autoload directory itself may have been missing.
  have off : ∀ auto, (t.createDirectories d.autoload).1.resolve d.autoload true =
      .ok (.entry auto .directory) →
      auto ≠ lua ∧ auto ++ [name] ∉ (t.createDirectories d.autoload).1.way d.installed true := by
    intro auto hauto
    rw [ways]
    rcases createDirectories_autoload h.installed with same | ⟨-, -, into⟩
    · rw [same] at hauto
      exact apart.off_link rfl auto hauto
    · have hauto' := hauto.symm.trans into
      cases hauto'
      refine ⟨by simp, ?_⟩
      rw [List.append_assoc]
      exact apart.off_new_link rfl
  obtain ⟨u, cleared, linked⟩ := d.linkAutoload_cases t name
  have left : d.Holds name u lua e := by
    rcases cleared with same | removed
    · rw [same]
      exact held
    · rw [removed]
      exact held.remove_link hname off
  rcases linked with same | made
  · rw [same]
    exact left
  · rw [made]
    exact left.mono (FileTree.makeLink_extends _ _ _)

/-- The script in the directory of installed scripts can be read. -/
theorem Holds.read {content : ByteArray} (h : d.Holds name t lua (.file content))
    (hname : Path.IsName name) (hnul : '\x00' ∉ name.toList) :
    t.read (Path.join d.installed name) = .ok content := by
  have there := FileTree.resolve_join true hname hnul d.installed_ne_empty (by simp [h.target])
    h.installed
  rw [FileTree.placeAt, h.target] at there
  rw [FileTree.read, there]
  rfl

/-- What is apart stays so when entries are taken away and the directory of installed scripts is
still there. -/
theorem Apart.anti {u : FileTree} {linked : Bool} (h : d.Apart name linked t lua)
    (less : t.Extends u) (hu : u.resolve d.installed true = .ok (.entry lua .directory)) :
    d.Apart name linked u lua := by
  have ways := (less.resolve hu).2
  refine ⟨ways ▸ h.off_target, fun hl auto hauto => ?_, fun hl => ways ▸ h.off_new_link hl⟩
  exact ways ▸ h.off_link hl auto (less.resolve hauto).1

/-- Moving a file to the directory of installed scripts puts it there, unless it changes nothing at
all. -/
theorem Apart.move {source : String} {loc : Location} {content : ByteArray} {linked : Bool}
    (apart : ∀ lua, t.resolve d.installed true = .ok (.entry lua .directory) →
      d.Apart name linked t lua)
    (hname : Path.IsName name) (hnul : '\x00' ∉ name.toList)
    (hs : t.resolve source false = .ok (.entry loc (.file content))) :
    (∃ error, t.move source (Path.join d.installed name) = (t, .error error)) ∨
      ∃ u lua, t.move source (Path.join d.installed name) = (u, .ok ()) ∧
        d.Holds name u lua (.file content) ∧ d.Apart name linked u lua := by
  rcases FileTree.move_file_cases hs hname hnul d.installed_ne_empty with
    failed | ⟨lua, hlua, -, moved⟩
  · exact .inl failed
  · have stored : t.get? loc = some (.file content) := FileTree.resolve_stores hs (by simp)
    have off := apart lua hlua
    refine .inr ?_
    rcases moved with ⟨rfl, moved⟩ | ⟨-, moved⟩
    · exact ⟨t, lua, moved, ⟨hlua, stored⟩, off⟩
    · have target_ne : lua ++ [name] ≠ [] := by simp
      have source_ne := FileTree.ne_nil_of_get? stored (by simp)
      obtain ⟨installed, ways⟩ :=
        FileTree.resolve_relocate hlua stored target_ne off.off_target
      refine ⟨_, lua, moved, ⟨installed, ?_⟩, ?_⟩
      · rw [FileTree.get?_relocate source_ne target_ne, if_pos rfl]
      · refine ⟨ways ▸ off.off_target, fun hl auto hauto => ?_,
          fun hl => ways ▸ off.off_new_link hl⟩
        rw [ways]
        exact off.off_link hl auto (FileTree.resolve_of_relocate stored target_ne hauto)

/-! ### Updating a link -/

/-- Where the autoload entry of a name is looked up: to make a link, its directory is made first. -/
def linking (d : ScriptDirs) (linked : Bool) (t : FileTree) : FileTree :=
  if linked then (t.createDirectories d.autoload).1 else t

/-- The tree after the autoload link of a name was made or removed. -/
def relinked (d : ScriptDirs) (linked : Bool) (t : FileTree) (name : String) : FileTree :=
  (if linked then d.linkAutoload t name else d.unlinkAutoload t name).1

/-- Updating the link of a name may change what is at a location: it is a directory made on the way
to the autoload directory, or where the path of the autoload entry leads, a link at its end not
followed. -/
def Relinks (d : ScriptDirs) (linked : Bool) (t : FileTree) (name : String) (loc : Location) :
    Prop :=
  (t.get? loc = none ∧ (d.linking linked t).get? loc = some .directory) ∨
    ∃ place, (d.linking linked t).resolve (Path.join d.autoload name) false = .ok place ∧
      place.location = loc

private theorem unlinkAutoload_fst :
    (d.unlinkAutoload t name).1 = (t.remove (Path.join d.autoload name)).1 := by
  unfold unlinkAutoload
  split
  · next heq => rw [heq]
  · rfl

private theorem unlinkAutoload_changed {loc : Location}
    (changed : (d.unlinkAutoload t name).1.get? loc ≠ t.get? loc) :
    ∃ place, t.resolve (Path.join d.autoload name) false = .ok place ∧ place.location = loc := by
  rw [unlinkAutoload_fst] at changed
  obtain ⟨e, leads⟩ := FileTree.remove_changed changed
  exact ⟨_, leads, rfl⟩

private theorem linkAutoload_changed {loc : Location}
    (changed : (d.linkAutoload t name).1.get? loc ≠
      (t.createDirectories d.autoload).1.get? loc) :
    ∃ place, (t.createDirectories d.autoload).1.resolve (Path.join d.autoload name) false =
      .ok place ∧ place.location = loc := by
  obtain ⟨u, cleared, linked⟩ := d.linkAutoload_cases t name
  generalize (t.createDirectories d.autoload).1 = made at changed cleared ⊢
  have less : made.Extends u := by
    rcases cleared with same | removed
    · rw [same]
      exact .refl made
    · rw [removed]
      exact made.extends_remove _
  have removed : u.get? loc ≠ made.get? loc →
      ∃ e, made.resolve (Path.join d.autoload name) false = .ok (.entry loc e) := by
    intro gone
    rcases cleared with same | removed
    · rw [same] at gone
      exact absurd rfl gone
    · rw [removed] at gone
      exact FileTree.remove_changed gone
  rcases linked with same | linked
  · rw [same] at changed
    obtain ⟨e, leads⟩ := removed changed
    exact ⟨_, leads, rfl⟩
  · rw [linked] at changed
    exact FileTree.makeLink_changed less removed changed

/-- Whatever an update of a link changes is one of the places it may change. -/
theorem relinked_changed {linked : Bool} {loc : Location}
    (changed : (d.relinked linked t name).get? loc ≠ t.get? loc) :
    d.Relinks linked t name loc := by
  unfold Relinks relinked linking at *
  cases linked with
  | false =>
    simp only [Bool.false_eq_true, if_false] at changed ⊢
    exact .inr (unlinkAutoload_changed changed)
  | true =>
    simp only [if_true] at changed ⊢
    rcases t.createDirectories_adds d.autoload loc with same | made
    · refine .inr (linkAutoload_changed ?_)
      rw [same]
      exact changed
    · exact .inl made

/-- For the name of an installed script only the entry of the name in the autoload directory
changes, and the directory itself where there was none. -/
theorem relinked_changed_name {linked : Bool} {loc : Location} (hname : Path.IsName name)
    (there : t.exists? (Path.join d.installed name) = true)
    (changed : (d.relinked linked t name).get? loc ≠ t.get? loc) :
    ∃ auto, (d.linking linked t).resolve d.autoload true = .ok (.entry auto .directory) ∧
      (loc = auto ++ [name] ∨
        loc = auto ∧ ∀ other, t.resolve d.autoload true ≠ .ok (.entry other .directory)) := by
  rcases relinked_changed changed with ⟨free, made⟩ | ⟨place, leads, rfl⟩
  · cases linked with
    | false =>
      rw [linking, if_neg Bool.false_ne_true, free] at made
      cases made
    | true =>
      simp only [linking, if_true] at made ⊢
      obtain ⟨lua, hlua⟩ := FileTree.directory_of_exists?_join hname d.installed_ne_empty there
      rcases createDirectories_autoload hlua with same | ⟨missing, put, into⟩
      · rw [same, free] at made
        cases made
      · refine ⟨_, into, .inr ⟨?_, ?_⟩⟩
        · by_contra other
          rw [put, FileTree.get?_put t (by simp), if_neg other, free] at made
          cases made
        · intro other leads
          have vacant := FileTree.resolve_join true isName_autoload (by decide)
            d.installed_ne_empty (by simp [missing]) hlua
          rw [FileTree.placeAt, missing] at vacant
          cases leads.symm.trans vacant
  · obtain ⟨auto, hauto, hloc⟩ :=
      FileTree.location_of_resolve_join hname d.autoload_ne_empty leads
    exact ⟨auto, hauto, .inl hloc⟩

private theorem workingDirectory_relinked (linked : Bool) :
    (d.relinked linked t name).workingDirectory = t.workingDirectory := by
  unfold relinked
  cases linked with
  | false =>
    rw [if_neg Bool.false_ne_true, unlinkAutoload_fst]
    exact (t.extends_remove _).workingDirectory.symm
  | true =>
    have made := (t.createDirectories_extends d.autoload).workingDirectory
    obtain ⟨u, cleared, linked⟩ := d.linkAutoload_cases t name
    have left : u.workingDirectory = t.workingDirectory := by
      rcases cleared with same | removed
      · rw [same]
        exact made
      · rw [removed]
        exact (FileTree.extends_remove _ _).workingDirectory.symm.trans made
    rw [if_pos rfl]
    rcases linked with same | linked
    · rw [same]
      exact left
    · rw [linked]
      exact (FileTree.makeLink_extends _ _ _).workingDirectory.trans left

/-- Where the autoload directory is found without going through the entry of a name in it, updating
the link of the name changes that entry only, and the directory is found as before. -/
theorem relinked_in_place (linked : Bool) (hname : Path.IsName name)
    (there : t.exists? (Path.join d.installed name) = true) {auto : Location}
    (hauto : t.resolve d.autoload true = .ok (.entry auto .directory))
    (off : auto ++ [name] ∉ t.way d.autoload true) :
    (∀ loc, (d.relinked linked t name).get? loc ≠ t.get? loc → loc = auto ++ [name]) ∧
      (d.relinked linked t name).resolve d.autoload true = .ok (.entry auto .directory) ∧
      (d.relinked linked t name).way d.autoload true = t.way d.autoload true := by
  have still : (d.linking linked t).resolve d.autoload true = .ok (.entry auto .directory) := by
    unfold linking
    split
    · exact ((t.createDirectories_extends d.autoload).resolve hauto).1
    · exact hauto
  have only : ∀ loc, (d.relinked linked t name).get? loc ≠ t.get? loc → loc = auto ++ [name] := by
    intro loc changed
    obtain ⟨auto', hauto', rfl | ⟨-, nowhere⟩⟩ := relinked_changed_name hname there changed
    · cases still.symm.trans hauto'
      rfl
    · exact absurd hauto (nowhere auto)
  refine ⟨only, ?_⟩
  rw [← hauto]
  apply FileTree.resolve_congr (workingDirectory_relinked linked)
  intro loc hl
  by_contra changed
  exact off (only loc changed ▸ hl)

/-! ### Copies below a home -/

/-- The home, the directory of installed scripts and the autoload directory are directories, one in
the other. -/
structure LaidOut (d : ScriptDirs) (t : FileTree) (root : Location) : Prop where
  home : t.resolve d.home true = .ok (.entry root .directory)
  installed : t.get? (root ++ ["lua"]) = some .directory
  autoload : t.get? (root ++ ["lua", "autoload"]) = some .directory

/-- Where the copies of a script of a plain name are. -/
def places (root : Location) (name : String) : List Location :=
  [root ++ ["lua", "autoload", name], root ++ ["lua", name], root ++ [name]]

variable {root : Location}

/-- A home that is found has a path. -/
theorem LaidOut.home_ne_empty (h : d.LaidOut t root) : d.home ≠ "" :=
  (FileTree.resolve_ok_iff.mp h.home).2.1

/-- The directory of installed scripts is found below the home. -/
theorem LaidOut.resolve_installed (h : d.LaidOut t root) :
    t.resolve d.installed true = .ok (.entry (root ++ ["lua"]) .directory) := by
  have into := FileTree.resolve_join true isName_lua (by decide) h.home_ne_empty
    (by simp [h.installed]) h.home
  rwa [FileTree.placeAt, h.installed] at into

/-- The autoload directory is found below that of the installed scripts. -/
theorem LaidOut.resolve_autoload (h : d.LaidOut t root) :
    t.resolve d.autoload true = .ok (.entry (root ++ ["lua", "autoload"]) .directory) := by
  have stored : t.get? (root ++ ["lua"] ++ ["autoload"]) = some .directory := by
    rw [List.append_assoc]
    exact h.autoload
  have into := FileTree.resolve_join true isName_autoload (by decide) d.installed_ne_empty
    (fun _ target => by rw [stored]; simp) h.resolve_installed
  rwa [FileTree.placeAt, stored, List.append_assoc] at into

/-- The copies of a script of a plain name are entries of that name in the script directories. -/
theorem LaidOut.mem_places (h : d.LaidOut t root) (hname : Path.IsName name)
    (relative : name.toList.head? ≠ some '~') {path : String} (copy : path ∈ d.copies env name)
    {loc : Location} {e : Entry} (leads : t.locate path = .ok (.entry loc e)) :
    loc ∈ places root name := by
  have inside {base : String} {dir : Location} (hp : base ≠ "")
      (hdir : t.resolve base true = .ok (.entry dir .directory))
      (leads : t.locate (Path.join base name) = .ok (.entry loc e)) : loc = dir ++ [name] := by
    rw [FileTree.locate_eq (hname.not_endsInSlash_join hp)] at leads
    obtain ⟨dir', hdir', there⟩ := FileTree.location_of_resolve_join hname hp leads
    cases hdir.symm.trans hdir'
    exact there
  simp only [copies, relative, if_false, List.map_cons, List.map_nil, List.mem_cons,
    List.not_mem_nil, or_false] at copy
  simp only [places, List.mem_cons, List.not_mem_nil, or_false]
  rcases copy with rfl | rfl | rfl
  · left
    simpa using inside d.autoload_ne_empty h.resolve_autoload leads
  · right
    left
    simpa using inside d.installed_ne_empty h.resolve_installed leads
  · right
    right
    exact inside h.home_ne_empty h.home leads

end ScriptDirs

end LuaHost
