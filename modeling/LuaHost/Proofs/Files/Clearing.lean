import LuaHost.Proofs.Files.ScriptDirs

/-!
# Removing the copies of a script

The copies of a script are removed one after the other, always the one that is found first. A link
that leads nowhere is not found, so it may stay while copies behind it are removed.
-/

namespace LuaHost.ScriptDirs

variable (d : ScriptDirs) (env : Environment) (name : String)

/-- Where the autoload link of a name is, below a home. -/
def linkAt (root : Location) (name : String) : Location := root ++ ["lua", "autoload", name]

/-- Where the installed file of a name is. -/
def fileAt (root : Location) (name : String) : Location := root ++ ["lua", name]

private theorem linkAt_ne_nil (root : Location) (name : String) : linkAt root name ≠ [] := by
  simp [linkAt]

private theorem fileAt_ne_nil (root : Location) (name : String) : fileAt root name ≠ [] := by
  simp [fileAt]

/-- No removal fails while the copy found first is removed as often as given. -/
def Clears : Nat → FileTree → Prop
  | 0, _ => True
  | n + 1, t =>
    Path.same (d.search env t name) name = false →
      ∃ loc, t.removed? (d.search env t name) = some loc ∧ Clears n (t.erase loc)

/-! ### The copy found first -/

variable {name} in
/-- Where a script of a name without a tilde in front is found. -/
theorem search_cases (relative : name.toList.head? ≠ some '~') (t : FileTree) :
    (t.exists? (Path.join d.autoload name) = true ∧
      d.search env t name = Path.join d.autoload name) ∨
    (t.exists? (Path.join d.autoload name) = false ∧
      t.exists? (Path.join d.installed name) = true ∧
      d.search env t name = Path.join d.installed name) ∨
    (t.exists? (Path.join d.autoload name) = false ∧
      t.exists? (Path.join d.installed name) = false ∧
      (d.search env t name = Path.join d.home name ∨ d.search env t name = name)) := by
  simp only [search, if_neg relative, List.map_cons, List.map_nil, List.find?_cons, List.find?_nil]
  cases t.exists? (Path.join d.autoload name) <;> cases t.exists? (Path.join d.installed name) <;>
    cases t.exists? (Path.join d.home name) <;> simp

variable {d env name} {t u : FileTree} {root : Location} {n : Nat}

/-- What is removed from a directory is an entry of the name there. -/
theorem location_of_removed?_join (hname : Path.IsName name) {base : String} (hb : base ≠ "")
    {dir loc : Location} (hdir : t.resolve base true = .ok (.entry dir .directory))
    (less : t.Extends u) (taken : u.removed? (Path.join base name) = some loc) :
    loc = dir ++ [name] := by
  obtain ⟨e, -, leads⟩ := FileTree.resolve_of_removed? (less.removed? taken)
  obtain ⟨dir', hdir', there⟩ := FileTree.location_of_resolve_join hname hb leads
  cases hdir.symm.trans hdir'
  exact there

/-- What is found in a directory is removed first. -/
theorem Clears.first (h : d.Clears env name (n + 1) u) (hname : Path.IsName name) {base : String}
    (hb : base ≠ "") {dir : Location} (hdir : t.resolve base true = .ok (.entry dir .directory))
    (less : t.Extends u) (found : d.search env u name = Path.join base name) :
    u.removed? (Path.join base name) = some (dir ++ [name]) ∧
      d.cleared env name (n + 1) u = d.cleared env name n (u.erase (dir ++ [name])) ∧
      d.Clears env name n (u.erase (dir ++ [name])) := by
  have other := hname.not_same_join hb
  rw [← found] at other
  obtain ⟨loc, taken, rest⟩ := h other
  have after := cleared_succ d env name (n := n) (by simp [other]) taken
  rw [found] at taken
  obtain rfl := location_of_removed?_join hname hb hdir less taken
  exact ⟨taken, after, rest⟩

section

variable (laid : d.LaidOut t root) (hname : Path.IsName name)
  (relative : name.toList.head? ≠ some '~') (less : t.Extends u)
include laid hname relative less

/-- The link is removed first if it leads anywhere. -/
theorem Clears.autoload (h : d.Clears env name (n + 1) u)
    (there : u.exists? (Path.join d.autoload name) = true) :
    u.removed? (Path.join d.autoload name) = some (linkAt root name) ∧
      d.cleared env name (n + 1) u = d.cleared env name n (u.erase (linkAt root name)) ∧
      d.Clears env name n (u.erase (linkAt root name)) := by
  have found : d.search env u name = Path.join d.autoload name := by
    rcases search_cases d env relative u with ⟨-, found⟩ | ⟨hidden, -⟩ | ⟨hidden, -⟩
    · exact found
    · cases there.symm.trans hidden
    · cases there.symm.trans hidden
  have place : root ++ ["lua", "autoload"] ++ [name] = linkAt root name := List.append_assoc _ _ _
  rw [← place]
  exact h.first hname d.autoload_ne_empty laid.resolve_autoload less found

/-- The file is removed first if it can be reached and the link cannot. -/
theorem Clears.installed (h : d.Clears env name (n + 1) u)
    (hidden : u.exists? (Path.join d.autoload name) = false)
    (there : u.exists? (Path.join d.installed name) = true) :
    u.removed? (Path.join d.installed name) = some (fileAt root name) ∧
      d.cleared env name (n + 1) u = d.cleared env name n (u.erase (fileAt root name)) ∧
      d.Clears env name n (u.erase (fileAt root name)) := by
  have found : d.search env u name = Path.join d.installed name := by
    rcases search_cases d env relative u with
      ⟨reached, -⟩ | ⟨-, -, found⟩ | ⟨-, missing, -⟩
    · cases hidden.symm.trans reached
    · exact found
    · cases there.symm.trans missing
  have place : root ++ ["lua"] ++ [name] = fileAt root name := List.append_assoc _ _ _
  rw [← place]
  exact h.first hname d.installed_ne_empty laid.resolve_installed less found

variable (env) (n) in
/-- Where neither the link nor the file leads anywhere, only an entry of the name in the home is
taken away. -/
theorem mem_clearing_of_hidden (hidden : u.exists? (Path.join d.autoload name) = false)
    (missing : u.exists? (Path.join d.installed name) = false) :
    ∀ loc ∈ d.clearing env name n u, loc = root ++ [name] := by
  induction n generalizing u with
  | zero => exact List.forall_mem_nil _
  | succ n ih =>
    intro loc taken
    unfold clearing at taken
    dsimp only at taken
    split at taken
    · cases taken
    · next other =>
      cases first : u.removed? (d.search env u name) with
      | none =>
        rw [first] at taken
        cases taken
      | some l =>
        have fewer := u.extends_erase (FileTree.ne_nil_of_removed? first)
        rw [first] at taken
        rcases List.mem_cons.mp taken with rfl | later
        · rcases search_cases d env relative u with
            ⟨reached, -⟩ | ⟨-, reached, -⟩ | ⟨-, -, found | found⟩
          · cases hidden.symm.trans reached
          · cases missing.symm.trans reached
          · rw [found] at first
            exact location_of_removed?_join hname laid.home_ne_empty laid.home less first
          · rw [found] at other
            exact absurd (by simp [Path.same]) other
        · exact ih (less.trans fewer) (fewer.exists?_eq_false hidden)
            (fewer.exists?_eq_false missing) loc later

variable (env) (n) in
/-- Then the link and the file stay what they are. -/
theorem get?_cleared_of_hidden (hidden : u.exists? (Path.join d.autoload name) = false)
    (missing : u.exists? (Path.join d.installed name) = false) :
    (d.cleared env name n u).get? (linkAt root name) = u.get? (linkAt root name) ∧
      (d.cleared env name n u).get? (fileAt root name) = u.get? (fileAt root name) := by
  have only := mem_clearing_of_hidden env n laid hname relative less hidden missing
  constructor
  · rw [get?_cleared, if_neg fun taken => ?_]
    simpa [linkAt] using only _ taken
  · rw [get?_cleared, if_neg fun taken => ?_]
    simpa [fileAt] using only _ taken

end

/-! ### What is left -/

/-- The tree without the link or the file of a name, which are two locations. -/
theorem get?_erase_linkAt (t : FileTree) (root : Location) (name : String) :
    (t.erase (linkAt root name)).get? (linkAt root name) = none ∧
      (t.erase (linkAt root name)).get? (fileAt root name) = t.get? (fileAt root name) := by
  have other : fileAt root name ≠ linkAt root name := by simp [fileAt, linkAt]
  have stored := t.get?_erase (linkAt_ne_nil root name)
  exact ⟨(stored _).trans (if_pos rfl), (stored _).trans (if_neg other)⟩

private theorem get?_erase_fileAt (t : FileTree) (root : Location) (name : String) :
    (t.erase (fileAt root name)).get? (fileAt root name) = none ∧
      (t.erase (fileAt root name)).get? (linkAt root name) = t.get? (linkAt root name) := by
  have other : linkAt root name ≠ fileAt root name := by simp [fileAt, linkAt]
  have stored := t.get?_erase (fileAt_ne_nil root name)
  exact ⟨(stored _).trans (if_pos rfl), (stored _).trans (if_neg other)⟩

/-- How a tree is left when the copies of a script were removed without a failure. The link and the
file lead nowhere, and they are gone exactly if each of them led anywhere when its turn came. -/
structure Cleaned (d : ScriptDirs) (name : String) (root : Location) (t u : FileTree) : Prop where
  link : u.exists? (Path.join d.autoload name) = false
  file : u.exists? (Path.join d.installed name) = false
  gone_iff : u.get? (linkAt root name) = none ∧ u.get? (fileAt root name) = none ↔
    (t.get? (linkAt root name) ≠ none → t.exists? (Path.join d.autoload name) = true) ∧
      (t.get? (fileAt root name) ≠ none →
        (t.erase (linkAt root name)).exists? (Path.join d.installed name) = true)

section

variable (laid : d.LaidOut t root) (hname : Path.IsName name)
  (relative : name.toList.head? ≠ some '~')
include laid hname relative

/-- The link is removed, and then the file if it can be reached without it. -/
theorem cleaned_of_link (clears : d.Clears env name 2 t)
    (link : t.exists? (Path.join d.autoload name) = true) :
    d.Cleaned name root t (d.cleared env name 2 t) := by
  obtain ⟨taken, after, rest⟩ := clears.autoload laid hname relative (.refl t) link
  obtain ⟨link_gone, file_kept⟩ := get?_erase_linkAt t root name
  have less := t.extends_erase (linkAt_ne_nil root name)
  have hidden := FileTree.exists?_erase taken
  rw [after]
  cases file : (t.erase (linkAt root name)).exists? (Path.join d.installed name) with
  | true =>
    obtain ⟨taken', after', -⟩ := rest.installed laid hname relative less hidden file
    obtain ⟨file_gone, link_kept⟩ := get?_erase_fileAt (t.erase (linkAt root name)) root name
    have fewer := (t.erase (linkAt root name)).extends_erase (fileAt_ne_nil root name)
    have both : d.cleared env name 1 (t.erase (linkAt root name)) =
        (t.erase (linkAt root name)).erase (fileAt root name) := after'
    rw [both]
    exact ⟨fewer.exists?_eq_false hidden, FileTree.exists?_erase taken',
      by simp [link, file, link_kept, link_gone, file_gone]⟩
  | false =>
    obtain ⟨link_stays, file_stays⟩ := get?_cleared_of_hidden env 1 laid hname
      relative less hidden file
    have fewer := d.extends_cleared env name 1 (t.erase (linkAt root name))
    exact ⟨fewer.exists?_eq_false hidden, fewer.exists?_eq_false file,
      by simp [link, file, link_stays, file_stays, link_gone, file_kept]⟩

/-- Where the link leads nowhere the file is removed, and the link stays if there is one. -/
theorem cleaned_of_file (clears : d.Clears env name 2 t)
    (hidden : t.exists? (Path.join d.autoload name) = false)
    (file : t.exists? (Path.join d.installed name) = true) :
    d.Cleaned name root t (d.cleared env name 2 t) := by
  obtain ⟨taken, after, -⟩ := clears.installed laid hname relative (.refl t) hidden file
  obtain ⟨file_gone, link_kept⟩ := get?_erase_fileAt t root name
  have less := t.extends_erase (fileAt_ne_nil root name)
  have missing := FileTree.exists?_erase taken
  obtain ⟨link_stays, file_stays⟩ := get?_cleared_of_hidden env 1 laid hname
    relative less (less.exists?_eq_false hidden) missing
  have fewer := d.extends_cleared env name 1 (t.erase (fileAt root name))
  rw [after]
  refine ⟨fewer.exists?_eq_false (less.exists?_eq_false hidden), fewer.exists?_eq_false missing, ?_⟩
  rw [link_stays, file_stays, link_kept, file_gone, hidden]
  constructor
  · rintro ⟨free, -⟩
    -- There was no link, so that the file was found without one.
    refine ⟨fun there => absurd free there, fun _ => ?_⟩
    rw [FileTree.exists?_erase_of_free (linkAt_ne_nil root name) free]
    exact file
  · rintro ⟨leads, -⟩
    refine ⟨?_, rfl⟩
    by_contra there
    cases leads there

/-- Where both lead nowhere they stay. -/
theorem cleaned_of_neither (hidden : t.exists? (Path.join d.autoload name) = false)
    (missing : t.exists? (Path.join d.installed name) = false) :
    d.Cleaned name root t (d.cleared env name 2 t) := by
  obtain ⟨link_stays, file_stays⟩ := get?_cleared_of_hidden env 2 laid hname
    relative (.refl t) hidden missing
  have less := t.extends_erase (linkAt_ne_nil root name)
  have fewer := d.extends_cleared env name 2 t
  exact ⟨fewer.exists?_eq_false hidden, fewer.exists?_eq_false missing,
    by simp [hidden, link_stays, file_stays, less.exists?_eq_false missing]⟩

/-- Two removals without a failure leave the tree cleaned. -/
theorem cleaned_cleared (clears : d.Clears env name 2 t) :
    d.Cleaned name root t (d.cleared env name 2 t) := by
  cases link : t.exists? (Path.join d.autoload name) with
  | true => exact cleaned_of_link laid hname relative clears link
  | false =>
    cases file : t.exists? (Path.join d.installed name) with
    | true => exact cleaned_of_file laid hname relative clears link file
    | false => exact cleaned_of_neither laid hname relative link file

end

end LuaHost.ScriptDirs
