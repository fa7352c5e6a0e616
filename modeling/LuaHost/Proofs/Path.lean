import LuaHost.Path
import LuaHost.Proofs.Text
import Mathlib.Data.List.Basic
import Mathlib.Data.List.TakeWhile

/-!
# Paths that end in a name

A file name put after a directory is the last step of the joined path, whatever the text of the
directory is. The file name that a path ends in can be joined like that.
-/

namespace LuaHost

namespace Path

/-- A text that can be the name of a file. -/
structure IsName (name : String) : Prop where
  ne_empty : name ≠ ""
  no_slash : '/' ∉ name.toList
  ne_dot : name ≠ "."
  ne_dots : name ≠ ".."

/-- The steps of two paths with a slash between them are those of the first and then those of the
second. -/
theorem steps_append_slash (a b : List Char) :
    steps (String.ofList (a ++ '/' :: b)) = steps (String.ofList a) ++ steps (String.ofList b) := by
  simp [steps, Text.pieces_append_stop]

/-- A step without slashes is a path of one step. -/
theorem steps_of_no_slash {step : String} (hne : step ≠ "") (h : '/' ∉ step.toList) :
    steps step = [step] := by
  have whole : Text.pieces (· == '/') step.toList = [step.toList] := by
    apply Text.pieces_of_no_stop
    intro c hc
    have : c ≠ '/' := by rintro rfl; exact h hc
    simpa using this
  have some_char : step.toList ≠ [] := fun hn => hne (String.toList_eq_nil_iff.mp hn)
  simp [steps, whole, some_char]

namespace IsName

variable {name : String}

/-- A plain name is not empty. -/
theorem toList_ne_nil (h : IsName name) : name.toList ≠ [] := by
  intro hn
  exact h.ne_empty (String.toList_eq_nil_iff.mp hn)

private theorem steps_eq (h : IsName name) : steps name = [name] :=
  steps_of_no_slash h.ne_empty h.no_slash

private theorem not_isAbsolute (h : IsName name) : isAbsolute name = false := by
  have : name.toList.head? ≠ some '/' := by
    intro hh
    exact h.no_slash (List.mem_of_mem_head? hh)
  simpa [isAbsolute] using this

/-- A plain name does not end in a slash. -/
theorem not_endsInSlash (h : IsName name) : endsInSlash name = false := by
  have : name.toList.getLast? ≠ some '/' := by
    intro hl
    exact h.no_slash (List.mem_of_getLast? hl)
  simpa [endsInSlash] using this

/-- Joining a name puts it after the directory, with a slash between unless there is one. -/
theorem join_eq (h : IsName name) {dir : String} (hd : dir ≠ "") :
    join dir name =
      String.ofList ((if endsInSlash dir then dir.toList else dir.toList ++ ['/']) ++
        name.toList) := by
  have hne : dir.isEmpty = false := by simpa using hd
  apply String.toList_injective
  simp only [join, h.not_isAbsolute, hne, Bool.or_self, Bool.false_eq_true, if_false]
  split <;> simp

/-- A name that is joined to a path is its last step. -/
theorem steps_join (h : IsName name) {dir : String} (hd : dir ≠ "") :
    steps (join dir name) = steps dir ++ [name] := by
  rw [h.join_eq hd]
  by_cases hs : endsInSlash dir = true
  · obtain ⟨front, hf⟩ : ∃ front, dir.toList = front ++ ['/'] := by
      have last : dir.toList.getLast? = some '/' := by simpa [endsInSlash] using hs
      exact ⟨_, (List.dropLast_append_getLast? _ last).symm⟩
    have hdir : dir = String.ofList (front ++ ['/']) := by rw [← hf, String.ofList_toList]
    have short : steps dir = steps (String.ofList front) := by
      rw [hdir, steps_append_slash]
      simp [steps, Text.pieces]
    rw [if_pos hs, hf, List.append_assoc, List.singleton_append, steps_append_slash, short,
      String.ofList_toList, h.steps_eq]
  · rw [if_neg hs, List.append_assoc, List.singleton_append, steps_append_slash,
      String.ofList_toList, String.ofList_toList, h.steps_eq]

/-- A name that is joined to a path leaves it absolute or relative. -/
theorem isAbsolute_join (h : IsName name) {dir : String} (hd : dir ≠ "") :
    isAbsolute (join dir name) = isAbsolute dir := by
  obtain ⟨c, cs, hc⟩ : ∃ c cs, dir.toList = c :: cs := by
    refine List.exists_cons_of_ne_nil fun hn => hd (String.toList_eq_nil_iff.mp hn)
  rw [h.join_eq hd]
  split <;> simp [isAbsolute, hc]

/-- A path that a name was joined to does not end in a slash. -/
theorem not_endsInSlash_join (h : IsName name) {dir : String} (hd : dir ≠ "") :
    endsInSlash (join dir name) = false := by
  rw [h.join_eq hd, ← h.not_endsInSlash]
  simp only [endsInSlash, String.toList_ofList, List.getLast?_append_of_ne_nil _ h.toList_ne_nil]

/-- A path that a name was joined to is not empty. -/
theorem join_ne_empty (h : IsName name) {dir : String} (hd : dir ≠ "") :
    join dir name ≠ "" := by
  intro he
  have := congrArg String.toList he
  rw [h.join_eq hd] at this
  simp [h.toList_ne_nil] at this

/-- But for slashes a joined path is made of the characters of both. -/
theorem mem_join (h : IsName name) {dir : String} (hd : dir ≠ "") {c : Char} (hc : c ≠ '/') :
    c ∈ (join dir name).toList ↔ c ∈ dir.toList ∨ c ∈ name.toList := by
  rw [h.join_eq hd]
  split <;> simp [hc]

end IsName

/-- The steps of a path are texts between slashes, and none is empty. -/
theorem of_mem_steps {path step : String} (h : step ∈ steps path) :
    step ≠ "" ∧ '/' ∉ step.toList := by
  simp only [steps, List.mem_map, List.mem_filter] at h
  obtain ⟨piece, ⟨hp, hne⟩, rfl⟩ := h
  constructor
  · intro he
    have : piece = [] := by simpa using congrArg String.toList he
    simp [this] at hne
  · intro hs
    have := Text.not_stop_of_mem_pieces hp '/' (by simpa using hs)
    simp at this

private theorem component?_eq_name_iff (step name : String) :
    component? step = some (.name name) ↔ step = name ∧ name ≠ "." ∧ name ≠ ".." := by
  unfold component?
  by_cases hdot : step = "."
  · simp_all
  · by_cases hdots : step = ".."
    · simp_all
    · simp only [hdot, hdots, if_false, Option.some.injEq, Component.name.injEq]
      constructor
      · rintro rfl
        exact ⟨rfl, hdot, hdots⟩
      · rintro ⟨rfl, -⟩
        rfl

/-- The names among the components of a path are steps of the path. -/
theorem mem_steps_of_mem_components {path name : String} (h : .name name ∈ components path) :
    name ∈ steps path ∧ name ≠ "." ∧ name ≠ ".." := by
  have within (ss : List String) (hm : Component.name name ∈ ss.filterMap component?) :
      name ∈ ss ∧ name ≠ "." ∧ name ≠ ".." := by
    obtain ⟨step, hs, hc⟩ := List.mem_filterMap.mp hm
    obtain ⟨rfl, hn⟩ := (component?_eq_name_iff step name).mp hc
    exact ⟨hs, hn⟩
  unfold components at h
  split at h
  · rcases List.mem_cons.mp h with h | h
    · cases h
    · exact within _ h
  · split at h
    · next rest heq =>
      rcases List.mem_cons.mp h with h | h
      · cases h
      · obtain ⟨hm, hn⟩ := within _ h
        exact ⟨heq ▸ List.mem_cons_of_mem _ hm, hn⟩
    · exact within _ h

private theorem mem_components_of_fileName? {path name : String} (h : fileName? path = some name) :
    .name name ∈ components path := by
  unfold fileName? at h
  split at h
  · next heq =>
    cases h
    exact List.mem_of_getLast? heq
  · cases h

/-- The file name that a path ends in is a name. -/
theorem isName_of_fileName? {path name : String} (h : fileName? path = some name) :
    IsName name := by
  obtain ⟨hs, hdot, hdots⟩ := mem_steps_of_mem_components (mem_components_of_fileName? h)
  obtain ⟨hne, hno⟩ := of_mem_steps hs
  exact ⟨hne, hno, hdot, hdots⟩

/-- The characters of a step are those of the path. -/
theorem mem_of_mem_steps {path step : String} (h : step ∈ steps path) {c : Char}
    (hc : c ∈ step.toList) : c ∈ path.toList := by
  simp only [steps, List.mem_map, List.mem_filter] at h
  obtain ⟨piece, ⟨hp, -⟩, rfl⟩ := h
  exact Text.mem_of_mem_pieces hp (by simpa using hc)

/-- The characters of the file name that a path ends in are those of the path. -/
theorem mem_of_mem_fileName? {path name : String} (h : fileName? path = some name) {c : Char}
    (hc : c ∈ name.toList) : c ∈ path.toList :=
  mem_of_mem_steps (mem_steps_of_mem_components (mem_components_of_fileName? h)).1 hc

/-! ### Slashes at the end -/

/-- Slashes at the end of a path are no steps. -/
theorem steps_append_slashes (s : List Char) {tail : List Char} (h : ∀ c ∈ tail, c = '/') :
    steps (String.ofList (s ++ tail)) = steps (String.ofList s) := by
  induction tail generalizing s with
  | nil => rw [List.append_nil]
  | cons c tail ih =>
    obtain rfl := h c List.mem_cons_self
    have none : steps (String.ofList tail) = [] := by
      have := ih [] fun d hd => h d (List.mem_cons_of_mem _ hd)
      rw [List.nil_append] at this
      rw [this]
      simp [steps, Text.pieces]
    rw [steps_append_slash, none, List.append_nil]

/-- A path is the path without the slashes at its end, and slashes. -/
theorem exists_slashes {path : String} (h : steps path ≠ []) :
    ∃ tail, (∀ c ∈ tail, c = '/') ∧ path.toList = (withoutSlashes path).toList ++ tail ∧
      endsInSlash (withoutSlashes path) = false := by
  have cut := List.takeWhile_append_dropWhile (p := fun c => decide (c = '/'))
    (l := path.toList.reverse)
  have slashes : ∀ c ∈ path.toList.reverse.takeWhile fun c => decide (c = '/'), c = '/' :=
    fun c hc => by simpa using List.mem_takeWhile_imp hc
  have stop := List.head?_dropWhile_not (fun c => decide (c = '/')) path.toList.reverse
  generalize ht : path.toList.reverse.takeWhile (fun c => decide (c = '/')) = tail at *
  generalize hr : path.toList.reverse.dropWhile (fun c => decide (c = '/')) = rest at *
  have whole : path.toList = rest.reverse ++ tail.reverse := by
    rw [← List.reverse_append, cut, List.reverse_reverse]
  have some_rest : rest ≠ [] := by
    rintro rfl
    apply h
    have turned : ∀ c ∈ tail.reverse, c = '/' := by simpa using slashes
    have all := steps_append_slashes [] turned
    rw [← String.ofList_toList (s := path), whole, List.reverse_nil, all]
    simp [steps, Text.pieces]
  have without : withoutSlashes path = String.ofList rest.reverse := by
    simp [withoutSlashes, hr, some_rest]
  refine ⟨tail.reverse, by simpa using slashes, ?_, ?_⟩
  · rw [without, String.toList_ofList]
    exact whole
  · obtain ⟨c, cs, rfl⟩ := List.exists_cons_of_ne_nil some_rest
    simpa [without, endsInSlash] using stop

/-- A path that does not end in a slash has no slashes to leave aside. -/
theorem withoutSlashes_eq {path : String} (h : endsInSlash path = false) :
    withoutSlashes path = path := by
  apply String.toList_injective
  rcases List.eq_nil_or_concat path.toList with hp | ⟨front, c, hp⟩
  · simp [withoutSlashes, hp]
  · have hc : c ≠ '/' := by simpa [endsInSlash, hp] using h
    simp [withoutSlashes, hp, hc]

/-! ### Components -/

/-- Texts without slashes are the steps of the path that they make. -/
theorem steps_intercalate {ss : List String} (h : ∀ s ∈ ss, s ≠ "" ∧ '/' ∉ s.toList) :
    steps ("/".intercalate ss) = ss := by
  induction ss with
  | nil => simp [steps, Text.pieces]
  | cons step rest ih =>
    have here := h step List.mem_cons_self
    have first := steps_of_no_slash here.1 here.2
    have later := ih fun s hs => h s (List.mem_cons_of_mem step hs)
    by_cases hr : rest = []
    · rw [hr, String.intercalate_singleton, first]
    · have split : "/".intercalate (step :: rest) =
          String.ofList (step.toList ++ '/' :: ("/".intercalate rest).toList) := by
        apply String.toList_injective
        rw [String.intercalate_cons_of_ne_nil hr]
        simp
      rw [split, steps_append_slash, String.ofList_toList, String.ofList_toList, first, later]
      rfl

/-- Names with slashes between them are made of slashes and of the characters of the names. -/
theorem mem_intercalate {ss : List String} {c : Char} (h : c ∈ ("/".intercalate ss).toList) :
    c = '/' ∨ ∃ s ∈ ss, c ∈ s.toList := by
  induction ss with
  | nil => simp at h
  | cons step rest ih =>
    by_cases hr : rest = []
    · rw [hr, String.intercalate_singleton] at h
      exact .inr ⟨step, List.mem_cons_self, h⟩
    · rw [String.intercalate_cons_of_ne_nil hr] at h
      simp only [String.toList_append, List.mem_append] at h
      rcases h with (h | h) | h
      · exact .inr ⟨step, List.mem_cons_self, h⟩
      · exact .inl (by simpa using h)
      · rcases ih h with h | ⟨s, hs, hc⟩
        · exact .inl h
        · exact .inr ⟨s, List.mem_cons_of_mem step hs, hc⟩

/-- Names with slashes between them are a relative path. -/
theorem not_isAbsolute_intercalate {ss : List String} (h : ∀ s ∈ ss, s ≠ "" ∧ '/' ∉ s.toList) :
    isAbsolute ("/".intercalate ss) = false := by
  cases ss with
  | nil => simp [isAbsolute]
  | cons step rest =>
    obtain ⟨hne, hno⟩ := h step List.mem_cons_self
    obtain ⟨c, cs, hc⟩ : ∃ c cs, step.toList = c :: cs :=
      List.exists_cons_of_ne_nil fun hn => hne (String.toList_eq_nil_iff.mp hn)
    have first : c ≠ '/' := by
      rintro rfl
      exact hno (hc ▸ List.mem_cons_self)
    by_cases hr : rest = []
    · simp [isAbsolute, hr, hc, first]
    · rw [String.intercalate_cons_of_ne_nil hr]
      simp [isAbsolute, hc, first]

/-- The last of some texts ends what they make. -/
theorem exists_intercalate_concat (ss : List String) (s : String) :
    ∃ front, "/".intercalate (ss ++ [s]) = front ++ s := by
  by_cases hs : ss = []
  · exact ⟨"", by simp [hs]⟩
  · exact ⟨_, by
      rw [String.intercalate_append_of_ne_nil hs (List.cons_ne_nil _ _),
        String.intercalate_singleton]⟩

/-- The steps without those that stay where they are. -/
def undotted (ss : List String) : List String := ss.filter (· ≠ ".")

private theorem written_component? (ss : List String) :
    (ss.filterMap component?).filterMap Component.step? = undotted ss := by
  induction ss with
  | nil => rfl
  | cons step rest ih =>
    by_cases hdot : step = "."
    · simpa [hdot, component?, undotted] using ih
    · by_cases hdots : step = ".."
      · subst hdots
        exact congrArg _ ih
      · have here : component? step = some (.name step) := by simp [component?, hdot, hdots]
        have back : Component.step? (.name step) = some step := rfl
        rw [List.filterMap_cons_some here, List.filterMap_cons_some back, ih]
        simp [undotted, hdot]

/-- The steps that the components of a path are written as. -/
def written (path : String) : List String := (components path).filterMap Component.step?

private theorem root_mem_filterMap (ss : List String) : .root ∉ ss.filterMap component? := by
  intro h
  obtain ⟨step, -, hc⟩ := List.mem_filterMap.mp h
  unfold component? at hc
  split at hc
  · cases hc
  · split at hc <;> cases hc

private theorem components_cases (path : String) :
    (isAbsolute path = true ∧ components path = .root :: (steps path).filterMap component?) ∨
      (isAbsolute path = false ∧
        ((∃ rest, steps path = "." :: rest ∧
            components path = .here :: rest.filterMap component?) ∨
          components path = (steps path).filterMap component?)) := by
  unfold components
  split
  · next h => exact .inl ⟨h, rfl⟩
  · next h =>
    refine .inr ⟨by simpa using h, ?_⟩
    split
    · next rest heq => exact .inl ⟨rest, heq, rfl⟩
    · exact .inr rfl

/-- But for dots the steps are those that are written. -/
theorem undotted_written (path : String) : undotted (written path) = undotted (steps path) := by
  have twice (ss : List String) : undotted (undotted ss) = undotted ss := by
    simp [undotted]
  have here : Component.step? .here = some "." := rfl
  unfold written
  rcases components_cases path with ⟨-, h⟩ | ⟨-, ⟨rest, hs, h⟩ | h⟩
  · rw [h, List.filterMap_cons_none rfl, written_component?, twice]
  · rw [h, hs, List.filterMap_cons_some here, written_component?]
    exact twice rest
  · rw [h, written_component?, twice]

/-- A step that is written is one of the steps. -/
theorem mem_steps_of_mem_written {path step : String} (h : step ∈ written path) :
    step ∈ steps path := by
  have inner (ss : List String) (hm : step ∈ undotted ss) : step ∈ ss := List.mem_of_mem_filter hm
  have here : Component.step? .here = some "." := rfl
  unfold written at h
  rcases components_cases path with ⟨-, hc⟩ | ⟨-, ⟨rest, hs, hc⟩ | hc⟩
  · rw [hc, List.filterMap_cons_none rfl, written_component?] at h
    exact inner _ h
  · rw [hc, List.filterMap_cons_some here, written_component?] at h
    rw [hs]
    rcases List.mem_cons.mp h with rfl | h
    · exact List.mem_cons_self
    · exact List.mem_cons_of_mem _ (inner _ h)
  · rw [hc, written_component?] at h
    exact inner _ h

/-- An absolute path begins at the root, and a relative one does not. -/
theorem head?_components (path : String) :
    (components path).head? = some .root ↔ isAbsolute path = true := by
  rcases components_cases path with ⟨ha, h⟩ | ⟨ha, ⟨rest, hs, h⟩ | h⟩
  · simp [h, ha]
  · simp [h, ha]
  · rw [h, ha]
    constructor
    · intro hh
      exact absurd (List.mem_of_mem_head? hh) (root_mem_filterMap _)
    · intro hf
      cases hf

/-- A name put after a directory is one more component. -/
theorem IsName.components_join {name : String} (h : IsName name) {dir : String} (hd : dir ≠ "") :
    components (join dir name) = components dir ++ [.name name] := by
  have last : component? name = some (.name name) := by
    simp [component?, h.ne_dot, h.ne_dots]
  unfold components
  rw [h.isAbsolute_join hd, h.steps_join hd]
  split
  · simp [List.filterMap_append, last]
  · cases hs : steps dir with
    | nil => simp [last, h.ne_dot]
    | cons step rest =>
      rw [List.cons_append]
      split
      · next heq =>
        cases heq
        simp [last]
      · next hne =>
        split
        · next heq =>
          cases heq
          exact absurd rfl (hne _)
        · rw [← List.cons_append, List.filterMap_append]
          simp [last]

/-- A relative path that is not empty starts with a step. -/
theorem steps_ne_nil {path : String} (hp : path ≠ "") (relative : isAbsolute path = false) :
    steps path ≠ [] := by
  obtain ⟨c, cs, hc⟩ := List.exists_cons_of_ne_nil fun hn => hp (String.toList_eq_nil_iff.mp hn)
  obtain ⟨p, ps, hcut⟩ := Text.exists_pieces (· == '/') cs
  have hslash : (c == '/') = false := by simpa [isAbsolute, hc] using relative
  have whole : Text.pieces (· == '/') (c :: cs) = (c :: p) :: ps := Text.pieces_cons hslash hcut
  simp [steps, hc, whole]

private theorem components_ne_nil {path : String} (hp : path ≠ "") : components path ≠ [] := by
  unfold components
  split
  · exact List.cons_ne_nil _ _
  · next relative =>
    have some_step := steps_ne_nil hp (by simpa using relative)
    split
    · exact List.cons_ne_nil _ _
    · next other =>
      obtain ⟨step, rest, hs⟩ := List.exists_cons_of_ne_nil some_step
      have hdot : step ≠ "." := fun he => other rest (he ▸ hs)
      by_cases hdots : step = ".." <;> simp [hs, component?, hdot, hdots]

/-- A name put after a directory is another path than the name. -/
theorem IsName.not_same_join {name : String} (h : IsName name) {dir : String} (hd : dir ≠ "") :
    same (join dir name) name = false := by
  have alone : components name = [.name name] := by
    rw [components, h.not_isAbsolute, if_neg Bool.false_ne_true, h.steps_eq]
    split
    · next heq => exact absurd (List.cons.inj heq).1 h.ne_dot
    · simp [component?, h.ne_dot, h.ne_dots]
  simp [same, alone, h.components_join hd, components_ne_nil hd]

end Path

end LuaHost
