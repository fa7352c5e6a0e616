import LuaHost.Proofs.Files.ScriptDirs

/-!
# Autoload links

The autoload entry of a name is a link that leads back to the script beside the autoload directory.
Making it twice is making it once, and removing it takes everything back but what was in its place
before. Reading through it is reading the script with one link fewer to spend, so that a script
behind as many links as the system follows is out of its reach.
-/

namespace LuaHost

namespace FileTree

variable {t : FileTree} {last : Bool} {dir : Location} {ss : List String}

/-! ### Links to spend -/

/-- Walk on behind a link when as many links may still be followed, this one included. -/
def walkBehind (t : FileTree) (last : Bool) : Nat → Location → List String → Except OsError Place
  | 0 => fun _ _ => .error .tooManyLinks
  | links + 1 => t.walk last links

private theorem walk_eq (t : FileTree) (last : Bool) (links : Nat) :
    t.walk last links = t.walkWith last (t.walkBehind last links) := by
  cases links <;> rfl

/-- What holds of every way to go on from a directory holds of going on behind a link. -/
theorem walkBehind_eq {dir' : Location} {ss' : List String}
    (h : ∀ follow, t.walkWith last follow dir ss = t.walkWith last follow dir' ss') (links : Nat) :
    t.walkBehind last links dir ss = t.walkBehind last links dir' ss' := by
  cases links with
  | zero => rfl
  | succ links =>
    show t.walk last links dir ss = t.walk last links dir' ss'
    rw [walk_eq]
    exact h _

private theorem walkBehind_dots (links : Nat) :
    t.walkBehind last links dir (".." :: ss) = t.walkBehind last links dir.dropLast ss :=
  walkBehind_eq (fun _ => by rw [walkWith, if_neg (by decide), if_pos rfl]) links

private theorem walkBehind_directory {name : String} (hname : Path.IsName name)
    (stored : t.get? (dir ++ [name]) = some .directory) (links : Nat) :
    t.walkBehind last links dir (name :: ss) = t.walkBehind last links (dir ++ [name]) ss :=
  walkBehind_eq (fun _ => by simp only [walkWith, hname.ne_dot, hname.ne_dots, if_false, stored])
    links

private theorem walkBehind_link {name target : String} (hname : Path.IsName name)
    (stored : t.get? (dir ++ [name]) = some (.link target))
    (relative : Path.isAbsolute target = false) (links : Nat) :
    t.walkBehind true links dir [name] = t.walkBehind true (links - 1) dir (steps target) := by
  cases links with
  | zero => rfl
  | succ links =>
    show t.walk true links dir [name] = _
    rw [walk_eq]
    simp [walkWith, hname.ne_dot, hname.ne_dots, stored, relative]

private theorem walkWith_eq_or {f g : Location → List String → Except OsError Place}
    (behind : ∀ dir ss, f dir ss = g dir ss ∨ f dir ss = .error .tooManyLinks) :
    t.walkWith last f dir ss = t.walkWith last g dir ss ∨
      t.walkWith last f dir ss = .error .tooManyLinks := by
  induction ss generalizing dir with
  | nil => exact .inl rfl
  | cons step rest ih =>
    cases t.firstStep dir step with
    | onward _ _ _ walks _ =>
      rw [walks, walks]
      exact ih
    | free _ walks _ =>
      rw [walks, walks]
      exact .inl rfl
    | file _ _ walks _ =>
      rw [walks, walks]
      exact .inl rfl
    | link _ _ _ walks _ =>
      rw [walks, walks]
      split
      · exact .inl rfl
      · exact behind _ _

/-- With one link fewer a walk ends as before, or it runs out of links. -/
theorem walkBehind_eq_or (links : Nat) (dir : Location) (ss : List String) :
    t.walkBehind last links dir ss = t.walk last links dir ss ∨
      t.walkBehind last links dir ss = .error .tooManyLinks := by
  induction links generalizing dir ss with
  | zero => exact .inr rfl
  | succ links ih =>
    show t.walk last links dir ss = _ ∨ t.walk last links dir ss = _
    rw [walk_eq]
    exact walkWith_eq_or ih

/-- Steps from one directory lead to another one by way of some links, which are spent on every
walk that goes on from there. -/
def Spends (t : FileTree) (dir : Location) (ss : List String) (d : Location) (used : Nat) : Prop :=
  ∀ links last rest, rest ≠ [] →
    t.walkBehind last links dir (ss ++ rest) = t.walkBehind last (links - used) d rest

private theorem walkWith_spends {f : Location → List String → Except OsError Place} {d : Location}
    (behind : ∀ dir ss, f dir ss = .ok (.entry d .directory) → ∃ used, t.Spends dir ss d used)
    (h : t.walkWith true f dir ss = .ok (.entry d .directory)) :
    ∃ used, t.Spends dir ss d used := by
  induction ss generalizing dir with
  | nil =>
    cases h
    exact ⟨0, fun _ _ _ _ => rfl⟩
  | cons step more ih =>
    cases t.firstStep dir step with
    | onward _ _ _ walks _ =>
      rw [walks] at h
      obtain ⟨used, spent⟩ := ih h
      refine ⟨used, fun links last rest hrest => ?_⟩
      rw [← spent links last rest hrest]
      exact walkBehind_eq (fun follow => walks last follow (more ++ rest)) links
    | free _ walks _ =>
      rw [walks] at h
      split at h <;> cases h
    | file _ _ walks _ =>
      rw [walks] at h
      split at h <;> cases h
    | link target start _ walks _ =>
      rw [walks, Bool.not_true, Bool.and_false, if_neg Bool.false_ne_true] at h
      obtain ⟨used, spent⟩ := behind _ _ h
      refine ⟨used + 1, fun links last rest hrest => ?_⟩
      cases links with
      | zero => rw [Nat.zero_sub]; rfl
      | succ links =>
        have goes_on : (more ++ rest).isEmpty = false := by simp [hrest]
        rw [Nat.add_sub_add_right, ← spent links last rest hrest]
        show t.walk last links dir (step :: (more ++ rest)) = _
        rw [walk_eq, walks, goes_on, Bool.false_and, if_neg Bool.false_ne_true, List.append_assoc]

private theorem walk_spends {links : Nat} {d : Location}
    (h : t.walk true links dir ss = .ok (.entry d .directory)) :
    ∃ used, t.Spends dir ss d used := by
  induction links generalizing dir ss with
  | zero => exact walkWith_spends (fun _ _ hf => by cases hf) h
  | succ links ih => exact walkWith_spends (fun _ _ hf => ih hf) h

/-- Where a path leads when at most `links` links may be followed. -/
def resolveWithin (t : FileTree) (links : Nat) (path : String) (last : Bool) :
    Except OsError Place :=
  if path.toList.contains '\x00' then .error .nulByte
  else if path.isEmpty then .error .notFound
  else t.walk last links (if Path.isAbsolute path then [] else t.workingDirectory) (steps path)

/-- The content of a file when at most `links` links may be followed. -/
def readWithin (t : FileTree) (links : Nat) (path : String) : Except OsError ByteArray := do
  match ← t.resolveWithin links path true with
  | .entry _ (.file content) => .ok content
  | .entry _ _ => .error .isDirectory
  | .vacant _ _ => .error .notFound

private theorem resolve_eq_resolveWithin (t : FileTree) (path : String) (last : Bool) :
    t.resolve path last = t.resolveWithin maxLinks path last := rfl

private theorem resolveWithin_join {base name : String} (hname : Path.IsName name)
    (hnul : '\x00' ∉ name.toList) (hbase : base ≠ "") (clean : '\x00' ∉ base.toList) (links : Nat) :
    t.resolveWithin links (Path.join base name) last =
      t.walkBehind last (links + 1) (if Path.isAbsolute base then [] else t.workingDirectory)
        (Path.steps base ++ [name]) := by
  have no_nul : '\x00' ∉ (Path.join base name).toList := by
    rw [hname.mem_join hbase (by decide)]
    exact not_or.mpr ⟨clean, hnul⟩
  have not_empty := hname.join_ne_empty hbase
  rw [resolveWithin, if_neg (by simpa using no_nul), if_neg (by simpa using not_empty),
    hname.isAbsolute_join hbase, steps_join hname hbase]
  rfl

/-- With one link fewer reading a file ends as before, or it runs out of links. -/
theorem readWithin_eq_or (t : FileTree) (links : Nat) (path : String) :
    t.readWithin links path = t.readWithin (links + 1) path ∨
      t.readWithin links path = .error .tooManyLinks := by
  have resolved : t.resolveWithin links path true = t.resolveWithin (links + 1) path true ∨
      t.resolveWithin links path true = .error .tooManyLinks := by
    unfold resolveWithin
    split
    · exact .inl rfl
    · split
      · exact .inl rfl
      · exact walkBehind_eq_or (links + 1) _ _
  unfold readWithin
  rcases resolved with same | short
  · rw [same]
    exact .inl rfl
  · rw [short]
    exact .inr rfl

/-! ### Putting and forgetting -/

private theorem erase_of_free {loc : Location} (free : t.get? loc = none) : t.erase loc = t := by
  have hne : loc ≠ [] := by
    rintro rfl
    cases free
  have absent : t.entries.lookup loc = none := by simpa [get?, hne] using free
  have kept : t.entries.filter (·.1 ≠ loc) = t.entries := by
    rw [List.filter_eq_self]
    intro x hx
    have other : loc ≠ x.1 := by simpa using List.lookup_eq_none_iff.mp absent x hx
    simpa using other.symm
  rw [erase, kept]

/-- What was put under a free location can be forgotten again. -/
theorem erase_put {loc : Location} (free : t.get? loc = none) (e : Entry) :
    (t.put loc e).erase loc = t := by
  have hne : loc ≠ [] := by
    rintro rfl
    cases free
  have absent : t.entries.lookup loc = none := by simpa [get?, hne] using free
  have same := erase_of_free free
  simp only [erase] at same
  simp only [erase, put, absent, Option.isSome_none, Bool.false_eq_true, if_false]
  simpa using same

/-- Making a directory that is there already changes nothing. -/
theorem createDirectories_there {path name : String} (hname : Path.IsName name)
    (hnul : '\x00' ∉ name.toList) (hp : path ≠ "") {dir : Location}
    (h : t.resolve path true = .ok (.entry dir .directory))
    (stored : t.get? (dir ++ [name]) = some .directory) :
    t.createDirectories (Path.join path name) = (t, .ok ()) := by
  have there := resolve_pathOf hname hnul hp h
  rw [placeAt, stored] at there
  have leads := resolve_follow (fun _ other => by cases other) there
  rw [createDirectories]
  rw [hname.components_join hp, List.reverse_append, List.reverse_singleton,
    List.singleton_append] at there leads ⊢
  unfold makeDirectories
  simp only [makeDirectory, there, isDirectory, target?, leads, decide_true, if_true]

end FileTree

namespace ScriptDirs

open FileTree

variable {d : ScriptDirs} {t u : FileTree} {name : String} {root : Location}

/-! ### The entry of a name -/

/-- Where the autoload entry of a plain name is. -/
def autolink (root : Location) (name : String) : Location := root ++ ["lua", "autoload", name]

/-- The way to the home does not lead through the autoload entry of a name, were it a link. -/
def HomeOff (d : ScriptDirs) (t : FileTree) (root : Location) (name : String) : Prop :=
  ∀ target, t.get? (autolink root name) = some (.link target) →
    autolink root name ∉ t.way d.home true

private theorem autolink_eq (root : Location) (name : String) :
    autolink root name = root ++ ["lua", "autoload"] ++ [name] := by
  rw [autolink, List.append_assoc]
  rfl

private theorem autolink_ne_nil (root : Location) (name : String) : autolink root name ≠ [] := by
  simp [autolink]

/-- A file or a directory on the way to the home is stored as one, so that only a link could lead
through the entry of a name. -/
theorem LaidOut.off_way (h : d.LaidOut t root) (off : d.HomeOff t root name)
    (hdir : t.get? (autolink root name) ≠ some .directory) :
    autolink root name ∉ t.way d.home true := by
  intro hl
  obtain ⟨x, stored, file⟩ := get?_of_mem_way h.home _ hl
  cases x with
  | directory => exact hdir stored
  | file content => cases file content rfl
  | link target => exact off target stored hl

/-- The directories are where they were when only the entry of a name has changed. -/
theorem LaidOut.congr (h : d.LaidOut t root) (off : autolink root name ∉ t.way d.home true)
    (u : FileTree) (hw : u.workingDirectory = t.workingDirectory)
    (same : ∀ loc, loc ≠ autolink root name → u.get? loc = t.get? loc) :
    d.LaidOut u root ∧ u.way d.home true = t.way d.home true := by
  have agree : ∀ loc ∈ t.way d.home true, u.get? loc = t.get? loc := by
    intro loc hl
    apply same
    rintro rfl
    exact off hl
  obtain ⟨leads, ways⟩ := resolve_congr hw agree
  refine ⟨⟨leads.trans h.home, ?_, ?_⟩, ways⟩
  · rw [same _ (by simp [autolink]), h.installed]
  · rw [same _ (by simp [autolink]), h.autoload]

/-- The autoload entry of a name is what the name stands for in the autoload directory. -/
theorem LaidOut.resolve_autolink (h : d.LaidOut t root) (hname : Path.IsName name)
    (hnul : '\x00' ∉ name.toList) :
    t.resolve (Path.join d.autoload name) false =
      .ok (t.placeAt (root ++ ["lua", "autoload"]) name) :=
  resolve_join false hname hnul d.autoload_ne_empty (by simp) h.resolve_autoload

private theorem LaidOut.createDirectories_autoload (h : d.LaidOut t root) :
    t.createDirectories d.autoload = (t, .ok ()) := by
  have stored : t.get? (root ++ ["lua"] ++ ["autoload"]) = some .directory := by
    rw [List.append_assoc]
    exact h.autoload
  exact createDirectories_there isName_autoload (by decide) d.installed_ne_empty
    h.resolve_installed stored

/-! ### Making and removing a link -/

/-- The tree with the autoload link of a name in place of the entry of the name. -/
def autolinked (t : FileTree) (root : Location) (name : String) : FileTree :=
  (t.erase (autolink root name)).put (autolink root name) (.link (Path.join ".." name))

private theorem get?_autolinked (t : FileTree) (root : Location) (name : String) (loc : Location) :
    (autolinked t root name).get? loc =
      if loc = autolink root name then some (.link (Path.join ".." name)) else t.get? loc := by
  rw [autolinked, get?_put _ (autolink_ne_nil root name), get?_erase t (autolink_ne_nil root name)]
  split <;> rfl

private theorem erase_autolinked (t : FileTree) (root : Location) (name : String) :
    (autolinked t root name).erase (autolink root name) = t.erase (autolink root name) := by
  apply erase_put
  rw [get?_erase t (autolink_ne_nil root name), if_pos rfl]

/-- Removing the autoload entry of a name forgets it, if it is a file or a link. -/
theorem LaidOut.remove (h : d.LaidOut t root) (hname : Path.IsName name)
    (hnul : '\x00' ∉ name.toList) {e : Entry} (hdir : e ≠ .directory)
    (stored : t.get? (autolink root name) = some e) :
    t.remove (Path.join d.autoload name) = (t.erase (autolink root name), .ok ()) := by
  have no_slash := hname.not_endsInSlash_join d.autoload_ne_empty
  rw [autolink_eq] at stored ⊢
  have leads := h.resolve_autolink hname hnul
  rw [placeAt, stored, ← locate_eq no_slash] at leads
  unfold FileTree.remove
  cases e with
  | directory => exact absurd rfl hdir
  | file _ | link _ => simp only [leads, no_slash, Bool.false_eq_true, if_false]

/-- A link is made under the name when there is no entry. -/
theorem LaidOut.makeLink (h : d.LaidOut t root) (hname : Path.IsName name)
    (hnul : '\x00' ∉ name.toList) (free : t.get? (autolink root name) = none) :
    t.makeLink (Path.join ".." name) (Path.join d.autoload name) =
      (autolinked t root name, .ok ()) := by
  have target : '\x00' ∉ (Path.join ".." name).toList := by
    rw [hname.mem_join (by decide) (by decide)]
    exact not_or.mpr ⟨by decide, hnul⟩
  have same := erase_of_free free
  have leads := h.resolve_autolink hname hnul
  rw [autolinked, same]
  rw [autolink_eq] at free ⊢
  rw [placeAt, free] at leads
  rw [FileTree.makeLink, if_neg (by simpa using target), leads]

/-- Making the autoload link of a plain name fails for a name with a NUL and where a directory is in
the way, and changes nothing then. Otherwise the link takes the place of the entry. -/
theorem LaidOut.linkAutoload (h : d.LaidOut t root) (hname : Path.IsName name)
    (off : d.HomeOff t root name) :
    d.linkAutoload t name =
      if '\x00' ∈ name.toList then (t, .error .nulByte)
      else if t.get? (autolink root name) = some .directory then (t, .error .isDirectory)
      else (autolinked t root name, .ok ()) := by
  have no_slash := hname.not_endsInSlash_join d.autoload_ne_empty
  unfold ScriptDirs.linkAutoload
  rw [h.createDirectories_autoload]
  by_cases hnul : '\x00' ∈ name.toList
  · have in_path : '\x00' ∈ (Path.join d.autoload name).toList :=
      (hname.mem_join d.autoload_ne_empty (by decide)).mpr (.inr hnul)
    have in_target : '\x00' ∈ (Path.join ".." name).toList :=
      (hname.mem_join (by decide) (by decide)).mpr (.inr hnul)
    simp [hasEntry, resolve, FileTree.makeLink, in_path, in_target, hnul]
  · have leads := h.resolve_autolink hname hnul
    rw [placeAt, ← autolink_eq] at leads
    rw [if_neg hnul]
    cases stored : t.get? (autolink root name) with
    | none =>
      rw [stored] at leads
      simp [hasEntry, leads, h.makeLink hname hnul stored]
    | some e =>
      rw [stored] at leads
      have there : t.hasEntry (Path.join d.autoload name) = true := by simp only [hasEntry, leads]
      by_cases hdir : e = .directory
      · subst hdir
        rw [← locate_eq no_slash] at leads
        simp [there, FileTree.remove, leads]
      · have stays : t.get? (autolink root name) ≠ some .directory := by simpa [stored] using hdir
        have gone : (t.erase (autolink root name)).get? (autolink root name) = none := by
          rw [get?_erase t (autolink_ne_nil root name), if_pos rfl]
        have others : ∀ loc, loc ≠ autolink root name →
            (t.erase (autolink root name)).get? loc = t.get? loc := by
          intro loc other
          rw [get?_erase t (autolink_ne_nil root name), if_neg other]
        -- The way to the directories does not pass the entry that is removed, so it is still open.
        have less := (h.congr (h.off_way off stays) (t.erase _) rfl others).1
        have twice : autolinked (t.erase (autolink root name)) root name =
            autolinked t root name := by
          rw [autolinked, autolinked, erase_of_free gone]
        simp [there, h.remove hname hnul hdir stored, less.makeLink hname hnul gone, twice, hdir]

/-- Removing the autoload link takes back everything but what it has replaced. -/
theorem LaidOut.unlinkAutoload (h : d.LaidOut t root) (hname : Path.IsName name)
    (hnul : '\x00' ∉ name.toList) {e : Entry} (hdir : e ≠ .directory)
    (stored : t.get? (autolink root name) = some e) :
    d.unlinkAutoload t name = (t.erase (autolink root name), .ok ()) := by
  have removed := h.remove hname hnul hdir stored
  unfold ScriptDirs.unlinkAutoload
  split
  · next missing =>
    rw [removed] at missing
    cases missing
  · exact removed

/-! ### Reading through a link -/

section

variable (d) (hhome : d.home ≠ "")
include hhome

private theorem steps_installed : Path.steps d.installed = Path.steps d.home ++ ["lua"] := by
  rw [ScriptDirs.installed, isName_lua.steps_join hhome]

private theorem steps_autoload :
    Path.steps d.autoload = Path.steps d.home ++ ["lua", "autoload"] := by
  rw [ScriptDirs.autoload, isName_autoload.steps_join d.installed_ne_empty,
    d.steps_installed hhome, List.append_assoc, List.singleton_append]

private theorem isAbsolute_installed : Path.isAbsolute d.installed = Path.isAbsolute d.home := by
  rw [ScriptDirs.installed, isName_lua.isAbsolute_join hhome]

private theorem isAbsolute_autoload : Path.isAbsolute d.autoload = Path.isAbsolute d.home := by
  rw [ScriptDirs.autoload, isName_autoload.isAbsolute_join d.installed_ne_empty,
    d.isAbsolute_installed hhome]

end

/-- From the home on the autoload link takes one link more than the installed script. -/
theorem LaidOut.walkBehind_autoload (h : d.LaidOut t root) (hname : Path.IsName name)
    (stored : t.get? (autolink root name) = some (.link (Path.join ".." name))) (links : Nat) :
    t.walkBehind true links root ["lua", "autoload", name] =
      t.walkBehind true (links - 1) root ["lua", name] := by
  have up : steps (Path.join ".." name) = ["..", name] := by
    rw [steps_join hname (by decide)]
    rfl
  have relative : Path.isAbsolute (Path.join ".." name) = false := by
    rw [hname.isAbsolute_join (by decide)]
    decide
  have below : t.get? (root ++ ["lua"] ++ ["autoload"]) = some .directory := by
    rw [List.append_assoc]
    exact h.autoload
  have behind : t.get? (root ++ ["lua"] ++ ["autoload"] ++ [name]) =
      some (.link (Path.join ".." name)) := by
    rw [List.append_assoc, List.append_assoc]
    exact stored
  rw [walkBehind_directory isName_lua h.installed, walkBehind_directory isName_lua h.installed,
    walkBehind_directory isName_autoload below, walkBehind_link hname behind relative, up,
    walkBehind_dots, List.dropLast_concat]

/-- The autoload link leads to where the installed script is found with one link fewer. -/
theorem LaidOut.resolve_link (h : d.LaidOut t root) (hname : Path.IsName name)
    (hnul : '\x00' ∉ name.toList)
    (stored : t.get? (autolink root name) = some (.link (Path.join ".." name))) :
    t.resolve (Path.join d.autoload name) true =
      t.resolveWithin (maxLinks - 1) (Path.join d.installed name) true := by
  obtain ⟨-, hhome, leads⟩ := resolve_ok_iff.mp h.home
  obtain ⟨used, spent⟩ := walk_spends ((walk_undotted (undotted_steps d.home)).mp leads)
  rw [resolve_eq_resolveWithin,
    resolveWithin_join hname hnul d.autoload_ne_empty (resolve_ok_iff.mp h.resolve_autoload).1,
    resolveWithin_join hname hnul d.installed_ne_empty (resolve_ok_iff.mp h.resolve_installed).1,
    d.steps_autoload hhome, d.steps_installed hhome, d.isAbsolute_autoload hhome,
    d.isAbsolute_installed hhome, List.append_assoc, List.append_assoc]
  -- Both walks pass the home with the same links spent; the autoload link takes one more.
  have linked : t.walkBehind true (maxLinks + 1 - used) root ["lua", "autoload", name] =
      t.walkBehind true (maxLinks - used) root ["lua", name] := by
    have fewer : maxLinks + 1 - used - 1 = maxLinks - used := by omega
    rw [h.walkBehind_autoload hname stored, fewer]
  exact (spent (maxLinks + 1) true _ (List.cons_ne_nil _ _)).trans
    (linked.trans (spent maxLinks true _ (List.cons_ne_nil _ _)).symm)

private theorem LaidOut.read_link (h : d.LaidOut t root) (hname : Path.IsName name)
    (hnul : '\x00' ∉ name.toList)
    (stored : t.get? (autolink root name) = some (.link (Path.join ".." name))) :
    t.read (Path.join d.autoload name) =
      t.readWithin (maxLinks - 1) (Path.join d.installed name) := by
  rw [FileTree.read, h.resolve_link hname hnul stored]
  rfl

/-! ### Back and forth -/

/-- What holds after the autoload link of a name was made: no other entry has changed; reading
through the link is reading the installed script with one link fewer, which is the same unless the
script is behind all the links that the system follows; making the link again changes nothing; and
removing it gives back the tree from before without the entry of the name. -/
structure Autolinked (d : ScriptDirs) (name : String) (root : Location) (t u : FileTree) :
    Prop where
  others : ∀ loc, loc ≠ autolink root name → u.get? loc = t.get? loc
  reading : u.read (Path.join d.autoload name) =
    u.readWithin (maxLinks - 1) (Path.join d.installed name)
  same : u.readWithin (maxLinks - 1) (Path.join d.installed name) ≠ .error .tooManyLinks →
    u.read (Path.join d.autoload name) = u.read (Path.join d.installed name)
  again : d.linkAutoload u name = (u, .ok ())
  undone : d.unlinkAutoload u name = (t.erase (autolink root name), .ok ())

private theorem LaidOut.autolinked (h : d.LaidOut t root) (hname : Path.IsName name)
    (hnul : '\x00' ∉ name.toList) (off : d.HomeOff t root name)
    (hdir : t.get? (autolink root name) ≠ some .directory) :
    d.Autolinked name root t (autolinked t root name) := by
  have others : ∀ loc, loc ≠ autolink root name →
      (ScriptDirs.autolinked t root name).get? loc = t.get? loc := by
    intro loc other
    rw [get?_autolinked, if_neg other]
  have stored : (ScriptDirs.autolinked t root name).get? (autolink root name) =
      some (.link (Path.join ".." name)) := by
    rw [get?_autolinked, if_pos rfl]
  obtain ⟨laid, ways⟩ := h.congr (h.off_way off hdir) (ScriptDirs.autolinked t root name) rfl others
  have off' : d.HomeOff (ScriptDirs.autolinked t root name) root name := by
    intro _ _
    rw [ways]
    exact h.off_way off hdir
  refine ⟨others, laid.read_link hname hnul stored, fun enough => ?_, ?_, ?_⟩
  · rw [laid.read_link hname hnul stored]
    exact (readWithin_eq_or _ _ _).resolve_right enough
  · have twice : ScriptDirs.autolinked (ScriptDirs.autolinked t root name) root name =
        ScriptDirs.autolinked t root name := by
      rw [ScriptDirs.autolinked, erase_autolinked, ScriptDirs.autolinked]
    rw [laid.linkAutoload hname off', if_neg hnul, if_neg (by simp [stored]), twice]
  · rw [laid.unlinkAutoload hname hnul (by simp) stored, erase_autolinked]

/-- An autoload link of a plain name that is made can be read through, made again and taken back;
where it is not made, nothing changes. -/
theorem linkAutoload_reversible (h : d.LaidOut t root) (hname : Path.IsName name)
    (off : d.HomeOff t root name) :
    ((d.linkAutoload t name).2 = .ok () →
        d.Autolinked name root t (d.linkAutoload t name).1) ∧
      ((d.linkAutoload t name).2 ≠ .ok () → (d.linkAutoload t name).1 = t) := by
  rw [h.linkAutoload hname off]
  by_cases hnul : '\x00' ∈ name.toList
  · simp [hnul]
  · by_cases hdir : t.get? (autolink root name) = some .directory
    · simp [hnul, hdir]
    · simp [hnul, hdir, h.autolinked hname hnul off hdir]

/-- A tree below the home `h`, with entries under their names in the directory of installed scripts
and in the autoload directory. -/
def sample (installed autoload : List (String × Entry)) : FileTree where
  entries := [(["h"], .directory), (["h", "lua"], .directory),
      (["h", "lua", "autoload"], .directory)] ++
    installed.map (fun x => (["h", "lua", x.1], x.2)) ++
    autoload.map fun x => (["h", "lua", "autoload", x.1], x.2)
  workingDirectory := []

/-- Two installed scripts: the autoload entry of the one is a link that leads nowhere, that of the
other a directory. -/
def dangling : FileTree :=
  sample [("n.lua", .file ⟨#[]⟩), ("o.lua", .file ⟨#[]⟩)]
    [("n.lua", .link "gone"), ("o.lua", .directory)]

/-- The cases of a link that replaces one that leads nowhere, and of a directory in its place. -/
theorem linkAutoload_reversible_dangling :
    LaidOut ⟨"h"⟩ dangling ["h"] ∧
      (Path.IsName "n.lua" ∧ HomeOff ⟨"h"⟩ dangling ["h"] "n.lua" ∧
        (linkAutoload ⟨"h"⟩ dangling "n.lua").2 = .ok () ∧
        Autolinked ⟨"h"⟩ "n.lua" ["h"] dangling (linkAutoload ⟨"h"⟩ dangling "n.lua").1) ∧
      Path.IsName "o.lua" ∧ HomeOff ⟨"h"⟩ dangling ["h"] "o.lua" ∧
        (linkAutoload ⟨"h"⟩ dangling "o.lua").2 = .error .isDirectory ∧
        (linkAutoload ⟨"h"⟩ dangling "o.lua").1 = dangling := by
  have laid : LaidOut ⟨"h"⟩ dangling ["h"] :=
    ⟨by decide +kernel, by decide +kernel, by decide +kernel⟩
  have link : Path.IsName "n.lua" := ⟨by decide, by decide, by decide, by decide⟩
  have directory : Path.IsName "o.lua" := ⟨by decide, by decide, by decide, by decide⟩
  have off : HomeOff ⟨"h"⟩ dangling ["h"] "n.lua" := fun _ _ => by decide +kernel
  have off' : HomeOff ⟨"h"⟩ dangling ["h"] "o.lua" := fun _ _ => by decide +kernel
  have made : (linkAutoload ⟨"h"⟩ dangling "n.lua").2 = .ok () := by decide +kernel
  have refused : (linkAutoload ⟨"h"⟩ dangling "o.lua").2 = .error .isDirectory := by
    decide +kernel
  exact ⟨laid, ⟨link, off, made, (linkAutoload_reversible laid link off).1 made⟩, directory, off',
    refused, (linkAutoload_reversible laid directory off').2 (by simp [refused])⟩

/-- An installed script behind forty links: its own, and one that leads back to its directory
thirty-nine times over. -/
def winding : FileTree :=
  sample [("f.lua", .file ⟨#[]⟩), ("s", .link "."),
    ("n.lua", .link ("s/s/s/s/s/s/s/s/s/s/s/s/s/s/s/s/s/s/s/s/" ++
      "s/s/s/s/s/s/s/s/s/s/s/s/s/s/s/s/s/s/s/f.lua"))] []

/-- An autoload entry that leads to where the home is. -/
def roundabout : FileTree := sample [] [("n.lua", .link "../../..")]

/-- The link of a script that takes all links to reach cannot be read through, and the home cannot
be found any more once a link on the way to it has been removed to be made anew. -/
theorem linkAutoload_out_of_reach :
    (LaidOut ⟨"h"⟩ winding ["h"] ∧ Path.IsName "n.lua" ∧
      (linkAutoload ⟨"h"⟩ winding "n.lua").2 = .ok () ∧
      (linkAutoload ⟨"h"⟩ winding "n.lua").1.read (Path.join (installed ⟨"h"⟩) "n.lua") =
        .ok ⟨#[]⟩ ∧
      (linkAutoload ⟨"h"⟩ winding "n.lua").1.read (Path.join (autoload ⟨"h"⟩) "n.lua") =
        .error .tooManyLinks) ∧
    (LaidOut ⟨"h/lua/autoload/n.lua/h"⟩ roundabout ["h"] ∧
      (linkAutoload ⟨"h/lua/autoload/n.lua/h"⟩ roundabout "n.lua").2 = .error .notFound ∧
      roundabout.get? (autolink ["h"] "n.lua") = some (.link "../../..") ∧
      (linkAutoload ⟨"h/lua/autoload/n.lua/h"⟩ roundabout "n.lua").1.get?
        (autolink ["h"] "n.lua") = none) := by
  refine ⟨⟨⟨?_, ?_, ?_⟩, ⟨?_, ?_, ?_, ?_⟩, ?_, ?_, ?_⟩, ⟨?_, ?_, ?_⟩, ?_, ?_, ?_⟩ <;>
    decide +kernel

end ScriptDirs

end LuaHost
