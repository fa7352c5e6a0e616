import LuaHost.Proofs.Files.Walk

/-!
# What operations change in a tree

Making directories and links only adds entries, removing takes at most one entry away, and moving
a file to a name in a directory puts it there or changes nothing.
-/

namespace LuaHost.FileTree

variable {t : FileTree} {last : Bool}

private theorem get?_nil (t : FileTree) : t.get? [] = some .directory := rfl

/-- Only a directory is stored at the root. -/
theorem ne_nil_of_get? {loc : Location} {e : Entry} (h : t.get? loc = some e)
    (hne : e ≠ .directory) : loc ≠ [] := by
  rintro rfl
  rw [get?_nil] at h
  cases h
  exact hne rfl

/-! ### Adding and taking away -/

/-- Forgetting an entry takes nothing else away and adds nothing. -/
theorem extends_erase (t : FileTree) {loc : Location} (h : loc ≠ []) : t.Extends (t.erase loc) := by
  refine ⟨rfl, fun l e he => ?_⟩
  rw [get?_erase t h] at he
  split at he
  · cases he
  · exact he

private theorem put_extends {loc : Location} (h : t.get? loc = none) (e : Entry) :
    (t.put loc e).Extends t := by
  have hne : loc ≠ [] := by
    rintro rfl
    cases h
  refine ⟨rfl, fun l x hx => ?_⟩
  rw [get?_put t hne, if_neg]
  · exact hx
  · rintro rfl
    rw [h] at hx
    cases hx

private theorem makeDirectory_extends (t : FileTree) (path : String) :
    (t.makeDirectory path).1.Extends t := by
  unfold makeDirectory
  split
  · next h => exact put_extends (resolve_stores h) _
  · exact .refl t
  · exact .refl t

/-- What holds of making one directory holds of making it and those above it. -/
theorem makeDirectories_rel {R : FileTree → FileTree → Prop} (refl : ∀ t, R t t)
    (trans : ∀ a b c, R a b → R b c → R a c) (make : ∀ t path, R t (makeDirectory t path).1)
    (components : List Path.Component) (t : FileTree) : R t (t.makeDirectories components).1 := by
  induction components generalizing t with
  | nil => exact refl t
  | cons c above ih =>
    have first := make t (pathOf (c :: above))
    unfold makeDirectories
    dsimp only
    split
    · next heq => rw [heq] at first; exact first
    · next t₁ heq =>
      rw [heq] at first
      have second := trans _ _ _ first (ih t₁)
      split
      · next heq => rw [heq] at second; exact second
      · next t₂ heq =>
        rw [heq] at second
        have third := trans _ _ _ second (make t₂ (pathOf (c :: above)))
        split
        · next heq => rw [heq] at third; exact third
        · next heq =>
          rw [heq] at third
          split <;> exact third
    · next heq =>
      rw [heq] at first
      split <;> exact first

/-- Making directories only adds to a tree. -/
theorem createDirectories_extends (t : FileTree) (path : String) :
    (t.createDirectories path).1.Extends t :=
  makeDirectories_rel (R := fun t u => u.Extends t) Extends.refl (fun _ _ _ h h' => h'.trans h)
    makeDirectory_extends _ t

/-- Another tree has the entries of this one, and perhaps more directories. -/
def AddsDirectories (t u : FileTree) : Prop :=
  ∀ loc, u.get? loc = t.get? loc ∨ t.get? loc = none ∧ u.get? loc = some .directory

private theorem AddsDirectories.trans {a b c : FileTree} (h : a.AddsDirectories b)
    (h' : b.AddsDirectories c) : a.AddsDirectories c := by
  intro loc
  rcases h' loc with same | ⟨free, made⟩
  · rw [same]
    exact h loc
  · refine .inr ⟨?_, made⟩
    rcases h loc with same | ⟨free', -⟩
    · rw [← same]
      exact free
    · exact free'

private theorem makeDirectory_adds (t : FileTree) (path : String) :
    t.AddsDirectories (t.makeDirectory path).1 := by
  intro loc
  unfold makeDirectory
  split
  · next parent name h =>
    have free : t.get? (parent ++ [name]) = none := resolve_stores h
    rw [get?_put t (by simp)]
    by_cases hl : loc = parent ++ [name]
    · rw [if_pos hl, hl]
      exact .inr ⟨free, rfl⟩
    · rw [if_neg hl]
      exact .inl rfl
  · exact .inl rfl
  · exact .inl rfl

/-- Making the directories of a path adds directories and changes nothing else. -/
theorem createDirectories_adds (t : FileTree) (path : String) :
    t.AddsDirectories (t.createDirectories path).1 :=
  makeDirectories_rel (R := AddsDirectories) (fun _ _ => .inl rfl)
    (fun _ _ _ => AddsDirectories.trans) makeDirectory_adds _ t

/-- Making a link puts it at the free name that its path leads to, or changes nothing. -/
theorem makeLink_cases (t : FileTree) (target path : String) :
    (∃ error, t.makeLink target path = (t, .error error)) ∨
      ∃ parent name, t.resolve path false = .ok (.vacant parent name) ∧
        t.makeLink target path = (t.put (parent ++ [name]) (.link target), .ok ()) := by
  unfold makeLink
  split
  · exact .inl ⟨_, rfl⟩
  · split
    · next h => exact .inr ⟨_, _, h, rfl⟩
    · exact .inl ⟨_, rfl⟩
    · exact .inl ⟨_, rfl⟩

/-- Making a link only adds to a tree. -/
theorem makeLink_extends (t : FileTree) (target path : String) :
    (t.makeLink target path).1.Extends t := by
  rcases t.makeLink_cases target path with ⟨error, failed⟩ | ⟨parent, name, free, made⟩
  · rw [failed]
    exact .refl t
  · rw [made]
    exact put_extends (resolve_stores free) _

/-- The location that removing a path takes away. -/
def removed? (t : FileTree) (path : String) : Option Location :=
  match t.locate path with
  | .ok (.entry _ .directory) => none
  | .ok (.entry loc _) => if Path.endsInSlash path then none else some loc
  | _ => none

/-- Removing a path takes at most one entry away. -/
theorem remove_cases (t : FileTree) (path : String) :
    (∃ error, t.removed? path = none ∧ t.remove path = (t, .error error)) ∨
      ∃ loc, t.removed? path = some loc ∧ t.remove path = (t.erase loc, .ok ()) := by
  cases hl : t.locate path with
  | error error => exact .inl ⟨error, by simp only [removed?, hl], by simp only [remove, hl]⟩
  | ok place =>
    cases place with
    | vacant parent name =>
      exact .inl ⟨.notFound, by simp only [removed?, hl], by simp only [remove, hl]⟩
    | entry loc e =>
      cases e with
      | directory =>
        exact .inl ⟨.isDirectory, by simp only [removed?, hl], by simp only [remove, hl]⟩
      | file _ | link _ =>
        by_cases hs : Path.endsInSlash path = true
        · exact .inl ⟨.notDirectory, by simp [removed?, hl, hs], by simp [remove, hl, hs]⟩
        · exact .inr ⟨loc, by simp [removed?, hl, hs], by simp [remove, hl, hs]⟩

/-- What is taken away is the file or the link that the path leads to. -/
theorem locate_of_removed? {path : String} {loc : Location} (h : t.removed? path = some loc) :
    ∃ e, e ≠ .directory ∧ t.locate path = .ok (.entry loc e) := by
  unfold removed? at h
  split at h
  · cases h
  · next loc' e hne heq =>
    split at h
    · cases h
    · cases h
      exact ⟨e, hne, heq⟩
  · cases h

/-- A path that can be removed does not end in a slash. -/
theorem resolve_of_removed? {path : String} {loc : Location} (h : t.removed? path = some loc) :
    ∃ e, e ≠ .directory ∧ t.resolve path false = .ok (.entry loc e) := by
  obtain ⟨e, hne, hl⟩ := locate_of_removed? h
  refine ⟨e, hne, ?_⟩
  by_cases hs : Path.endsInSlash path = true
  · cases e with
    | directory => exact absurd rfl hne
    | file _ | link _ => simp [removed?, hl, hs] at h
  · rwa [locate, Path.withoutSlashes_eq (by simpa using hs)] at hl

/-- The root is never taken away. -/
theorem ne_nil_of_removed? {path : String} {loc : Location} (h : t.removed? path = some loc) :
    loc ≠ [] := by
  obtain ⟨e, hne, hl⟩ := locate_of_removed? h
  exact ne_nil_of_get? (resolve_stores hl hne) hne

/-- What can be removed can be removed from a tree with more entries. -/
theorem Extends.removed? {a b : FileTree} (h : a.Extends b) {path : String} {loc : Location}
    (hb : b.removed? path = some loc) : a.removed? path = some loc := by
  obtain ⟨e, -, hl⟩ := locate_of_removed? hb
  have same : a.locate path = b.locate path := (h.resolve hl).1.trans hl.symm
  rw [FileTree.removed?, same]
  exact hb

/-- A path that was removed leads nowhere. -/
theorem exists?_erase {path : String} {loc : Location} (h : t.removed? path = some loc) :
    (t.erase loc).exists? path = false := by
  obtain ⟨e, hne, leads⟩ := resolve_of_removed? h
  have root := ne_nil_of_removed? h
  by_contra there
  obtain ⟨l, x, onward⟩ := exists?_iff.mp (by simpa using there)
  obtain ⟨l', x', leads'⟩ := resolve_last onward
  cases leads.symm.trans ((t.extends_erase root).resolve leads').1
  have still := resolve_stores leads' hne
  rw [get?_erase t root, if_pos rfl] at still
  cases still

/-- Forgetting an entry that is not there changes nothing. -/
theorem exists?_erase_of_free {loc : Location} (h : loc ≠ []) (free : t.get? loc = none)
    (path : String) : (t.erase loc).exists? path = t.exists? path := by
  have place : (t.erase loc).workingDirectory = t.workingDirectory := rfl
  have same : (t.erase loc).resolve path true = t.resolve path true := by
    refine (resolve_congr place fun l _ => ?_).1
    rw [get?_erase t h]
    split
    · next heq => rw [heq, free]
    · rfl
  rw [exists?, exists?, target?, target?, same]

/-- Removing a path changes at most the file or the link that the path leads to. -/
theorem remove_changed {path : String} {loc : Location}
    (changed : (t.remove path).1.get? loc ≠ t.get? loc) :
    ∃ e, t.resolve path false = .ok (.entry loc e) := by
  rcases t.remove_cases path with ⟨error, -, failed⟩ | ⟨l, taken, removed⟩
  · rw [failed] at changed
    exact absurd rfl changed
  · have gone : loc = l := by
      by_contra other
      rw [removed, get?_erase t (ne_nil_of_removed? taken), if_neg other] at changed
      exact changed rfl
    obtain ⟨e, -, leads⟩ := resolve_of_removed? taken
    exact ⟨e, gone ▸ leads⟩

/-- Removing a path adds nothing and changes no other entry. -/
theorem extends_remove (t : FileTree) (path : String) : t.Extends (t.remove path).1 := by
  rcases t.remove_cases path with ⟨error, -, failed⟩ | ⟨loc, taken, removed⟩
  · rw [failed]
    exact .refl t
  · rw [removed]
    exact t.extends_erase (ne_nil_of_removed? taken)

/-- Making a link after what its path leads to was removed, or not, changes nothing else. -/
theorem makeLink_changed {u : FileTree} {target path : String} {loc : Location}
    (less : t.Extends u)
    (removed : u.get? loc ≠ t.get? loc → ∃ e, t.resolve path false = .ok (.entry loc e))
    (changed : (u.makeLink target path).1.get? loc ≠ t.get? loc) :
    ∃ place, t.resolve path false = .ok place ∧ place.location = loc := by
  by_cases same : u.get? loc = t.get? loc
  · rcases u.makeLink_cases target path with ⟨error, failed⟩ | ⟨parent, name, free, made⟩
    · rw [failed] at changed
      exact absurd same changed
    · have there : loc = parent ++ [name] := by
        by_contra other
        rw [made, get?_put u (by simp), if_neg other] at changed
        exact changed same
      subst there
      exact ⟨_, less.resolve_place free same.symm, rfl⟩
  · obtain ⟨e, leads⟩ := removed same
    exact ⟨_, leads, rfl⟩

/-- A move puts the entry in its new place and frees the old one. -/
theorem get?_relocate {source target : Location} (hs : source ≠ []) (ht : target ≠ [])
    (e : Entry) (loc : Location) :
    (t.relocate source target e).get? loc =
      if loc = target then some e else if loc = source then none else t.get? loc := by
  rw [relocate, get?_put _ ht, get?_erase _ hs]

/-- Moving a file does not change where a path leads to a directory, unless the file takes the
place of a link on its way. -/
theorem resolve_relocate {path : String} {d source target : Location} {content : ByteArray}
    (hp : t.resolve path last = .ok (.entry d .directory))
    (hs : t.get? source = some (.file content)) (ht : target ≠ [])
    (hway : target ∉ t.way path last) :
    (t.relocate source target (.file content)).resolve path last = .ok (.entry d .directory) ∧
      (t.relocate source target (.file content)).way path last = t.way path last := by
  have hne : source ≠ [] := ne_nil_of_get? hs (by simp)
  have same : (t.relocate source target (.file content)).workingDirectory = t.workingDirectory :=
    rfl
  rw [← hp]
  apply resolve_congr same
  intro loc hl
  have off_target : loc ≠ target := fun heq => hway (heq ▸ hl)
  have off_source : loc ≠ source := by
    rintro rfl
    obtain ⟨x, hx, only⟩ := get?_of_mem_way hp loc hl
    rw [hs] at hx
    cases hx
    cases only content rfl
  rw [get?_relocate hne ht, if_neg off_target, if_neg off_source]

/-- Moving a file makes no path lead to a directory that did not lead there. -/
theorem resolve_of_relocate {path : String} {d source target : Location} {content : ByteArray}
    (hs : t.get? source = some (.file content)) (ht : target ≠ [])
    (h : (t.relocate source target (.file content)).resolve path last =
      .ok (.entry d .directory)) : t.resolve path last = .ok (.entry d .directory) := by
  have hne : source ≠ [] := ne_nil_of_get? hs (by simp)
  have same : t.workingDirectory =
    (t.relocate source target (.file content)).workingDirectory := rfl
  rw [← h]
  refine (resolve_congr same fun loc hl => ?_).1
  obtain ⟨x, hx, only⟩ := get?_of_mem_way h loc hl
  rw [get?_relocate hne ht] at hx ⊢
  split at hx
  · cases hx
    cases only content rfl
  · split at hx
    · cases hx
    · next off_target off_source => rw [if_neg off_target, if_neg off_source]

/-! ### Paths of files -/

/-- A path that leads to a file or a link ends in a name, and not in a slash. -/
theorem endsInName_of_resolve {path : String} {loc : Location} {e : Entry}
    (h : t.resolve path last = .ok (.entry loc e)) (hne : e ≠ .directory) :
    Path.endsInSlash path = false ∧ endsInName path = true := by
  have hw := walk_of_resolve h
  generalize (if Path.isAbsolute path then [] else t.workingDirectory) = dir at hw
  have no_slash : Path.endsInSlash path = false := by
    by_contra hs
    rw [steps, if_pos (by simpa using hs)] at hw
    exact hne (walk_dot (.inl rfl) hw)
  refine ⟨no_slash, ?_⟩
  rw [steps, no_slash, if_neg Bool.false_ne_true, List.append_nil] at hw
  rcases List.eq_nil_or_concat (Path.steps path) with hs | ⟨front, step, hs⟩
  · rw [hs] at hw
    cases hw
    exact absurd rfl hne
  · rw [hs, List.concat_eq_append] at hw
    have hdot : step ≠ "." := by
      rintro rfl
      exact hne (walk_dot (.inl rfl) hw)
    have hdots : step ≠ ".." := by
      rintro rfl
      exact hne (walk_dot (.inr rfl) hw)
    simp [endsInName, hs, hdot, hdots]

/-- A path without a slash at its end is located where it leads, a link at its end not followed. -/
theorem locate_eq {path : String} (h : Path.endsInSlash path = false) :
    t.locate path = t.resolve path false := by rw [locate, Path.withoutSlashes_eq h]

/-- A name after a path is no path of dots. -/
theorem endsInName_join {path name : String} (hname : Path.IsName name) (hp : path ≠ "") :
    endsInName (Path.join path name) = true := by
  simp [endsInName, hname.steps_join hp, hname.ne_dot, hname.ne_dots]

/-! ### Making directories -/

section

variable {path name : String}

/-- The steps of a name put after a directory. -/
private theorem of_mem_written_concat (hname : Path.IsName name) {s : String}
    (hs : s ∈ Path.written path ++ [name]) : s ≠ "" ∧ '/' ∉ s.toList := by
  rcases List.mem_append.mp hs with hs | hs
  · exact Path.of_mem_steps (Path.mem_steps_of_mem_written hs)
  · obtain rfl := List.mem_singleton.mp hs
    exact ⟨hname.ne_empty, hname.no_slash⟩

/-- The characters of these steps with slashes between them. -/
private theorem mem_intercalate_written {c : Char}
    (hc : c ∈ ("/".intercalate (Path.written path ++ [name])).toList) :
    c = '/' ∨ c ∈ path.toList ∨ c ∈ name.toList := by
  rcases Path.mem_intercalate hc with rfl | ⟨s, hs, hs'⟩
  · exact .inl rfl
  · rcases List.mem_append.mp hs with hs | hs
    · exact .inr (.inl (Path.mem_of_mem_steps (Path.mem_steps_of_mem_written hs) hs'))
    · obtain rfl := List.mem_singleton.mp hs
      exact .inr (.inr hs')

/-- The path of the components of a name put after a directory: the steps with slashes between
them, behind one more slash if the path is absolute. -/
private theorem pathOf_components_eq (hname : Path.IsName name) (hp : path ≠ "") :
    pathOf (Path.components (Path.join path name)).reverse =
      if Path.isAbsolute path = true then "/" ++ "/".intercalate (Path.written path ++ [name])
      else "/".intercalate (Path.written path ++ [name]) := by
  have names : ((Path.components (Path.join path name)).reverse.reverse.filterMap
      Path.Component.step?) = Path.written path ++ [name] := by
    rw [List.reverse_reverse, hname.components_join hp, List.filterMap_append]
    rfl
  have root : (Path.components (Path.join path name)).reverse.getLast? = some .root ↔
      Path.isAbsolute path = true := by
    rw [List.getLast?_reverse, Path.head?_components, hname.isAbsolute_join hp]
  simp only [pathOf, names, root]

/-- The path of the components of a name put after a directory, and its steps. -/
theorem pathOf_components_join (hname : Path.IsName name) (hp : path ≠ "") :
    let whole := pathOf (Path.components (Path.join path name)).reverse
    Path.steps whole = Path.written path ++ [name] ∧
      Path.isAbsolute whole = Path.isAbsolute path ∧ Path.endsInSlash whole = false ∧
      ∀ c ∈ whole.toList, c = '/' ∨ c ∈ path.toList ∨ c ∈ name.toList := by
  intro whole
  have hwhole : whole = _ := pathOf_components_eq hname hp
  obtain ⟨front, hfront⟩ := Path.exists_intercalate_concat (Path.written path) name
  have ends (front : String) : Path.endsInSlash (front ++ name) = false := by
    rw [← hname.not_endsInSlash]
    simp only [Path.endsInSlash, String.toList_append,
      List.getLast?_append_of_ne_nil _ hname.toList_ne_nil]
  have chars : ∀ c ∈ ("/".intercalate (Path.written path ++ [name])).toList,
      c = '/' ∨ c ∈ path.toList ∨ c ∈ name.toList := fun _ => mem_intercalate_written
  have fits : ∀ s ∈ Path.written path ++ [name], s ≠ "" ∧ '/' ∉ s.toList :=
    fun _ => of_mem_written_concat hname
  have steps := Path.steps_intercalate fits
  have relative := Path.not_isAbsolute_intercalate fits
  rw [hwhole]
  generalize "/".intercalate (Path.written path ++ [name]) = text at *
  by_cases ha : Path.isAbsolute path = true
  · rw [if_pos ha, ha]
    -- The slash in front cuts off an empty step, which does not count.
    have split : "/" ++ text = String.ofList ([] ++ '/' :: text.toList) := by
      apply String.toList_injective
      simp
    refine ⟨?_, ?_, ?_, ?_⟩
    · rw [split, Path.steps_append_slash, String.ofList_toList, steps]
      simp [Path.steps, Text.pieces]
    · simp [Path.isAbsolute]
    · rw [hfront, ← String.append_assoc]
      exact ends _
    · intro c hc
      rw [split] at hc
      rcases List.mem_cons.mp (by simpa using hc) with rfl | hc
      · exact .inl rfl
      · exact chars c hc
  · rw [if_neg ha]
    refine ⟨steps, ?_, ?_, chars⟩
    · rw [relative]
      simpa using ha
    · rw [hfront]
      exact ends _

/-- The path of the components leads where the path leads, when that is a name in a directory. -/
theorem resolve_pathOf (hname : Path.IsName name) (hnul : '\x00' ∉ name.toList) (hp : path ≠ "")
    {d : Location} (h : t.resolve path true = .ok (.entry d .directory)) :
    t.resolve (pathOf (Path.components (Path.join path name)).reverse) false =
      .ok (t.placeAt d name) := by
  obtain ⟨steps, absolute, no_slash, chars⟩ := pathOf_components_join hname hp
  generalize pathOf (Path.components (Path.join path name)).reverse = whole at *
  have same : Path.undotted (FileTree.steps path) = Path.undotted (Path.written path) := by
    rw [Path.undotted_written, undotted_steps]
  have landing : ∀ follow, t.walkWith false follow d [name] = .ok (t.placeAt d name) :=
    walkWith_placeAt hname (by simp)
  obtain ⟨free, -, hw⟩ := resolve_ok_iff.mp h
  have nul : '\x00' ∉ whole.toList := by
    intro hn
    rcases chars _ hn with h0 | hn | hn
    · cases h0
    · exact free hn
    · exact hnul hn
  have some_step : whole ≠ "" := by
    rintro rfl
    simp [Path.steps, Text.pieces] at steps
  refine resolve_ok_iff.mpr ⟨nul, some_step, ?_⟩
  rw [absolute, FileTree.steps, no_slash, if_neg Bool.false_ne_true, List.append_nil, steps]
  exact walk_step landing ((walk_undotted same).mp hw)

/-- Making the directory of a name in a directory makes at most that one. -/
theorem createDirectories_join (hname : Path.IsName name) (hnul : '\x00' ∉ name.toList)
    (hp : path ≠ "") {d : Location} (h : t.resolve path true = .ok (.entry d .directory)) :
    (t.get? (d ++ [name]) = none ∧
        (t.createDirectories (Path.join path name)).1 = t.put (d ++ [name]) .directory) ∨
      (t.createDirectories (Path.join path name)).1 = t := by
  have there := resolve_pathOf hname hnul hp h
  rw [createDirectories]
  rw [hname.components_join hp, List.reverse_append, List.reverse_singleton,
    List.singleton_append] at there ⊢
  unfold makeDirectories
  cases hg : t.get? (d ++ [name]) with
  | none =>
    rw [placeAt, hg] at there
    exact .inl ⟨rfl, by simp only [makeDirectory, there]⟩
  | some x =>
    rw [placeAt, hg] at there
    refine .inr ?_
    simp only [makeDirectory, there]
    split <;> rfl

end

/-! ### Moving -/

/-- A path leads to the directory that it leads to without the slashes at its end. -/
theorem resolve_of_locate_directory {path : String} {loc : Location}
    (hname : endsInName path = true) (h : t.locate path = .ok (.entry loc .directory)) :
    t.resolve path false = .ok (.entry loc .directory) := by
  by_cases hs : Path.endsInSlash path = true
  · have hne : Path.steps path ≠ [] := by
      intro hn
      simp [endsInName, hn] at hname
    obtain ⟨tail, slashes, whole, no_slash⟩ := Path.exists_slashes hne
    rw [locate] at h
    generalize Path.withoutSlashes path = short at h whole no_slash
    have same : Path.steps path = Path.steps short := by
      have := Path.steps_append_slashes short.toList slashes
      rwa [← whole, String.ofList_toList, String.ofList_toList] at this
    obtain ⟨c, cs, hc⟩ : ∃ c cs, short.toList = c :: cs := by
      refine List.exists_cons_of_ne_nil fun hn => hne ?_
      rw [same]
      simp [Path.steps, hn, Text.pieces]
    have head : Path.isAbsolute path = Path.isAbsolute short := by
      simp [Path.isAbsolute, whole, hc]
    obtain ⟨free, -, walks⟩ := resolve_ok_iff.mp h
    have nul : '\x00' ∉ path.toList := by
      intro hn
      rw [whole] at hn
      rcases List.mem_append.mp hn with hn | hn
      · exact free hn
      · cases slashes _ hn
    have hempty : path ≠ "" := by
      rintro rfl
      exact hne (by simp [Path.steps, Text.pieces])
    have hw := walk_follow (fun _ hl => by cases hl) walks
    rw [steps, no_slash, if_neg Bool.false_ne_true, List.append_nil] at hw
    refine resolve_ok_iff.mpr ⟨nul, hempty, ?_⟩
    rw [steps, if_pos hs, same, head]
    exact walk_step (fun _ => rfl) hw
  · rw [← locate_eq (by simpa using hs)]
    exact h

/-- Where there is no entry nothing can be read. -/
theorem read_ne_of_hasEntry_eq_false {path : String} (h : t.hasEntry path = false)
    (content : ByteArray) : t.read path ≠ .ok content := by
  intro hr
  cases hp : t.resolve path true with
  | error error =>
    rw [read, hp] at hr
    cases hr
  | ok place =>
    cases place with
    | vacant parent name =>
      rw [read, hp] at hr
      cases hr
    | entry l e =>
      obtain ⟨l', e', he⟩ := resolve_last hp
      exact absurd he ((t.hasEntry_eq_false_iff path).mp h l' e')

/-- Giving a path without an entry another name changes nothing. -/
theorem rename_missing {source : String} (h : t.hasEntry source = false) (target : String) :
    ∃ error, t.rename source target = (t, .error error) := by
  have missing := (t.hasEntry_eq_false_iff source).mp h
  unfold rename
  split
  · exact ⟨_, rfl⟩
  · next hnames =>
    have hname : endsInName source = true := by
      cases hn : endsInName source with
      | true => rfl
      | false => simp [hn] at hnames
    split
    · exact ⟨_, rfl⟩
    · exact ⟨_, rfl⟩
    · exact ⟨_, rfl⟩
    · next hl _ => exact absurd (resolve_of_locate_directory hname hl) (missing _ _)
    · next loc e _ _ hl _ =>
      by_cases hs : Path.endsInSlash source = true
      · exact ⟨.notDirectory, by simp [hs]⟩
      · rw [locate_eq (by simpa using hs)] at hl
        exact absurd hl (missing _ _)

/-- Moving from a path without an entry changes nothing. -/
theorem move_missing {source : String} (h : t.hasEntry source = false) (target : String) :
    ∃ error, t.move source target = (t, .error error) := by
  obtain ⟨error, renamed⟩ := rename_missing h target
  have copied : ∃ error, t.copy source target = (t, .error error) := by
    unfold copy
    split
    · exact ⟨_, rfl⟩
    · exact ⟨_, rfl⟩
    · next hr =>
      obtain ⟨l, e, he⟩ := resolve_last hr
      exact absurd he ((t.hasEntry_eq_false_iff source).mp h l e)
    · exact ⟨_, rfl⟩
  obtain ⟨error', copied⟩ := copied
  exact ⟨error', by simp only [move, renamed, copied]⟩

section

variable {source path name : String} {loc : Location} {content : ByteArray}

/-- Giving a file another name depends on what that name leads to. -/
theorem rename_file (hs : t.resolve source false = .ok (.entry loc (.file content)))
    (hname : Path.IsName name) (hp : path ≠ "") {place : Place}
    (ht : t.resolve (Path.join path name) false = .ok place) :
    t.rename source (Path.join path name) = t.renameFile loc (.file content) place := by
  obtain ⟨no_slash, ends⟩ := endsInName_of_resolve hs (by simp)
  have no_slash' := hname.not_endsInSlash_join hp
  rw [← locate_eq no_slash] at hs
  rw [← locate_eq no_slash'] at ht
  simp [rename, ends, endsInName_join hname hp, hs, ht, no_slash, no_slash']

private theorem rename_file_error (hs : t.resolve source false = .ok (.entry loc (.file content)))
    (hname : Path.IsName name) (hp : path ≠ "") {error : OsError}
    (ht : t.resolve (Path.join path name) false = .error error) :
    t.rename source (Path.join path name) = (t, .error error) := by
  obtain ⟨no_slash, ends⟩ := endsInName_of_resolve hs (by simp)
  rw [← locate_eq no_slash] at hs
  rw [← locate_eq (hname.not_endsInSlash_join hp)] at ht
  simp [rename, ends, endsInName_join hname hp, hs, ht]

/-- A file takes the place of anything but a directory. -/
theorem renameFile_placeAt {d : Location} (hs : t.get? loc = some (.file content))
    (hd : t.get? (d ++ [name]) ≠ some .directory) :
    t.renameFile loc (.file content) (t.placeAt d name) =
      if d ++ [name] = loc then (t, .ok ())
      else (t.relocate loc (d ++ [name]) (.file content), .ok ()) := by
  unfold placeAt
  cases hg : t.get? (d ++ [name]) with
  | none =>
    have hne : d ++ [name] ≠ loc := by
      rintro rfl
      rw [hg] at hs
      cases hs
    rw [if_neg hne]
    rfl
  | some e =>
    cases e with
    | directory => exact absurd hg hd
    | file _ => simp only [renameFile, eq_comm]
    | link _ => simp only [renameFile, eq_comm]

/-- Copying a file to where no file can be written changes nothing. -/
theorem copy_file_error (hs : t.resolve source false = .ok (.entry loc (.file content)))
    (hname : Path.IsName name) (hp : path ≠ "")
    (ht : (∃ error, t.resolve (Path.join path name) true = .error error) ∨
      ∃ d, t.resolve (Path.join path name) true = .ok (.entry d .directory)) :
    ∃ error, t.copy source (Path.join path name) = (t, .error error) := by
  have followed := resolve_follow (by simp) hs
  have no_slash := hname.not_endsInSlash_join hp
  rcases ht with ⟨error, ht⟩ | ⟨d, ht⟩
  · exact ⟨error, by simp [copy, followed, write, writable, no_slash, ht]⟩
  · exact ⟨.isDirectory, by simp [copy, followed, write, writable, no_slash, ht]⟩

/-- Moving a file to a name in a directory puts it there, unless a directory has that name; moving
it to where there is no directory changes nothing. -/
theorem move_file_cases (hs : t.resolve source false = .ok (.entry loc (.file content)))
    (hname : Path.IsName name) (hnul : '\x00' ∉ name.toList) (hp : path ≠ "") :
    (∃ error, t.move source (Path.join path name) = (t, .error error)) ∨
      ∃ d, t.resolve path true = .ok (.entry d .directory) ∧
        t.get? (d ++ [name]) ≠ some .directory ∧
        ((d ++ [name] = loc ∧ t.move source (Path.join path name) = (t, .ok ())) ∨
          (d ++ [name] ≠ loc ∧ t.move source (Path.join path name) =
            (t.relocate loc (d ++ [name]) (.file content), .ok ()))) := by
  by_cases hd : ∃ d, t.resolve path true = .ok (.entry d .directory)
  · obtain ⟨d, hd⟩ := hd
    have placed := resolve_join false hname hnul hp (by simp) hd
    have renamed := rename_file hs hname hp placed
    by_cases hdir : t.get? (d ++ [name]) = some .directory
    · have full := resolve_join true hname hnul hp (by simp [hdir]) hd
      obtain ⟨error, copied⟩ := copy_file_error hs hname hp
        (.inr ⟨d ++ [name], by simpa [placeAt, hdir] using full⟩)
      refine .inl ⟨error, ?_⟩
      simp [move, renamed, placeAt, hdir, renameFile, copied]
    · rw [renameFile_placeAt (resolve_stores hs (by simp)) hdir] at renamed
      refine .inr ⟨d, hd, hdir, ?_⟩
      by_cases heq : d ++ [name] = loc
      · exact .inl ⟨heq, by rw [move, renamed, if_pos heq]⟩
      · exact .inr ⟨heq, by rw [move, renamed, if_neg heq]⟩
  · have nowhere (d : Location) : t.resolve path true ≠ .ok (.entry d .directory) :=
      fun h => hd ⟨d, h⟩
    obtain ⟨error, ht⟩ := resolve_join_error false hname hp nowhere
    obtain ⟨error', copied⟩ := copy_file_error hs hname hp
      (.inl (resolve_join_error true hname hp nowhere))
    exact .inl ⟨error', by simp only [move, rename_file_error hs hname hp ht, copied]⟩

end

end LuaHost.FileTree
