import LuaHost.FileTree
import LuaHost.Proofs.Path

/-!
# The way of a path

To find where a path leads, a tree is asked for the entries at certain locations, one after the
other: these are the way of the path. Trees that agree on the way agree on where the path leads,
and a tree that lacks an entry of the way does not lead there.
-/

namespace LuaHost.FileTree

/-! ### Ways -/

/-- The locations that a walk along steps from a directory looks at; `onward` gives those behind
a link. -/
def wayWith (t : FileTree) (last : Bool) (onward : Location → List String → List Location) :
    Location → List String → List Location
  | _, [] => []
  | dir, step :: rest =>
    if step = "." then wayWith t last onward dir rest
    else if step = ".." then wayWith t last onward dir.dropLast rest
    else
      let loc := dir ++ [step]
      loc :: match t.get? loc with
        | some .directory => wayWith t last onward loc rest
        | some (.link target) =>
          if rest.isEmpty && !last then []
          else onward (if Path.isAbsolute target then [] else dir) (steps target ++ rest)
        | _ => []

/-- The locations that a walk along steps from a directory looks at, through at most `links`
links. -/
def wayFrom (t : FileTree) (last : Bool) : Nat → Location → List String → List Location
  | 0 => wayWith t last fun _ _ => []
  | links + 1 => wayWith t last (wayFrom t last links)

/-- The locations that are looked at to find where a path leads. -/
def way (t : FileTree) (path : String) (last : Bool) : List Location :=
  wayFrom t last maxLinks (if Path.isAbsolute path then [] else t.workingDirectory) (steps path)

variable {t u : FileTree} {last : Bool} {dir : Location} {ss : List String}

/-! ### The first step -/

/-- What the first step of a walk comes to: the walk goes on from a directory, or it meets a free
name, a file or a link. -/
inductive FirstStep (t : FileTree) (dir : Location) (step : String) : Prop where
  | onward (next : Location) (seen : List Location)
      (stored : ∀ loc ∈ seen, t.get? loc = some .directory)
      (walks : ∀ last follow rest,
        t.walkWith last follow dir (step :: rest) = t.walkWith last follow next rest)
      (ways : ∀ last behind rest,
        t.wayWith last behind dir (step :: rest) = seen ++ t.wayWith last behind next rest)
  | free (vacant : t.get? (dir ++ [step]) = none)
      (walks : ∀ last follow rest, t.walkWith last follow dir (step :: rest) =
        if rest.isEmpty then .ok (.vacant dir step) else .error .notFound)
      (ways : ∀ last behind rest, t.wayWith last behind dir (step :: rest) = [dir ++ [step]])
  | file (content : ByteArray) (stored : t.get? (dir ++ [step]) = some (.file content))
      (walks : ∀ last follow rest, t.walkWith last follow dir (step :: rest) =
        if rest.isEmpty then .ok (.entry (dir ++ [step]) (.file content))
        else .error .notDirectory)
      (ways : ∀ last behind rest, t.wayWith last behind dir (step :: rest) = [dir ++ [step]])
  | link (target : String) (start : Location)
      (stored : t.get? (dir ++ [step]) = some (.link target))
      (walks : ∀ last follow rest, t.walkWith last follow dir (step :: rest) =
        if rest.isEmpty && !last then .ok (.entry (dir ++ [step]) (.link target))
        else follow start (steps target ++ rest))
      (ways : ∀ last behind rest, t.wayWith last behind dir (step :: rest) =
        (dir ++ [step]) ::
          if rest.isEmpty && !last then [] else behind start (steps target ++ rest))

/-- Every first step comes to one of these. -/
theorem firstStep (t : FileTree) (dir : Location) (step : String) : t.FirstStep dir step := by
  by_cases hdot : step = "."
  · exact .onward dir [] (by simp) (fun _ _ _ => by rw [walkWith, if_pos hdot])
      (fun _ _ _ => by rw [wayWith, if_pos hdot, List.nil_append])
  · by_cases hdots : step = ".."
    · exact .onward dir.dropLast [] (by simp)
        (fun _ _ _ => by rw [walkWith, if_neg hdot, if_pos hdots])
        (fun _ _ _ => by rw [wayWith, if_neg hdot, if_pos hdots, List.nil_append])
    · cases he : t.get? (dir ++ [step]) with
      | none =>
        exact .free he (fun _ _ _ => by simp only [walkWith, hdot, hdots, he, if_false])
          (fun _ _ _ => by simp only [wayWith, hdot, hdots, he, if_false])
      | some e =>
        cases e with
        | directory =>
          exact .onward (dir ++ [step]) [dir ++ [step]] (by simpa using he)
            (fun _ _ _ => by simp only [walkWith, hdot, hdots, he, if_false])
            (fun _ _ _ => by
              simp only [wayWith, hdot, hdots, he, if_false, List.singleton_append])
        | file content =>
          exact .file content he (fun _ _ _ => by simp only [walkWith, hdot, hdots, he, if_false])
            (fun _ _ _ => by simp only [wayWith, hdot, hdots, he, if_false])
        | link target =>
          exact .link target (if Path.isAbsolute target then [] else dir) he
            (fun _ _ _ => by simp only [walkWith, hdot, hdots, he, if_false])
            (fun _ _ _ => by simp only [wayWith, hdot, hdots, he, if_false])

/-! ### Agreement on a way -/

private theorem walkWith_congr {f g : Location → List String → Except OsError Place}
    {onward onward' : Location → List String → List Location}
    (behind : ∀ dir ss, (∀ loc ∈ onward dir ss, u.get? loc = t.get? loc) →
      g dir ss = f dir ss ∧ onward' dir ss = onward dir ss)
    (h : ∀ loc ∈ t.wayWith last onward dir ss, u.get? loc = t.get? loc) :
    u.walkWith last g dir ss = t.walkWith last f dir ss ∧
      u.wayWith last onward' dir ss = t.wayWith last onward dir ss := by
  induction ss generalizing dir with
  | nil => exact ⟨rfl, rfl⟩
  | cons step rest ih =>
    by_cases hdot : step = "."
    · simp only [wayWith, walkWith, hdot, if_true] at h ⊢
      exact ih h
    · by_cases hdots : step = ".."
      · simp only [wayWith, walkWith, hdots] at h ⊢
        exact ih h
      · simp only [wayWith, walkWith, hdot, hdots, if_false] at h ⊢
        have here := h _ List.mem_cons_self
        have later (loc) (hl : loc ∈ _) := h loc (List.mem_cons_of_mem _ hl)
        rw [here]
        cases he : t.get? (dir ++ [step]) with
        | none => exact ⟨rfl, rfl⟩
        | some e =>
          simp only [he] at later
          cases e with
          | directory =>
            obtain ⟨walks, ways⟩ := ih later
            exact ⟨walks, congrArg _ ways⟩
          | file content => exact ⟨rfl, rfl⟩
          | link target =>
            by_cases hend : (rest.isEmpty && !last) = true
            · simp only [hend, if_true, and_self]
            · simp only [hend, Bool.false_eq_true, if_false] at later ⊢
              obtain ⟨walks, ways⟩ := behind _ _ later
              exact ⟨walks, congrArg _ ways⟩

private theorem walk_congr {links : Nat}
    (h : ∀ loc ∈ t.wayFrom last links dir ss, u.get? loc = t.get? loc) :
    u.walk last links dir ss = t.walk last links dir ss ∧
      u.wayFrom last links dir ss = t.wayFrom last links dir ss := by
  induction links generalizing dir ss with
  | zero => exact walkWith_congr (fun _ _ _ => ⟨rfl, rfl⟩) h
  | succ links ih => exact walkWith_congr (fun _ _ behind => ih behind) h

/-- Trees that agree on the way of a path agree on where it leads. -/
theorem resolve_congr {path : String} (hw : u.workingDirectory = t.workingDirectory)
    (h : ∀ loc ∈ t.way path last, u.get? loc = t.get? loc) :
    u.resolve path last = t.resolve path last ∧ u.way path last = t.way path last := by
  obtain ⟨walks, ways⟩ := walk_congr h
  rw [resolve, resolve, way, hw]
  refine ⟨?_, ways⟩
  split
  · rfl
  · split
    · rfl
    · exact walks

/-! ### Entries on a way -/

private theorem get?_of_mem_wayWith {f : Location → List String → Except OsError Place}
    {onward : Location → List String → List Location} {l : Location} {e : Entry}
    (behind : ∀ dir ss, f dir ss = .ok (.entry l e) → ∀ loc ∈ onward dir ss,
      ∃ x, t.get? loc = some x ∧ ∀ content, x = .file content → e = x)
    (h : t.walkWith last f dir ss = .ok (.entry l e)) :
    ∀ loc ∈ t.wayWith last onward dir ss,
      ∃ x, t.get? loc = some x ∧ ∀ content, x = .file content → e = x := by
  induction ss generalizing dir with
  | nil =>
    intro loc hl
    cases hl
  | cons step rest ih =>
    intro loc hl
    cases t.firstStep dir step with
    | onward _ _ stored walks ways =>
      rw [walks] at h
      rw [ways] at hl
      rcases List.mem_append.mp hl with passed | later
      · exact ⟨.directory, stored loc passed, fun _ other => by cases other⟩
      · exact ih h loc later
    | free _ walks _ =>
      rw [walks] at h
      split at h <;> cases h
    | file content stored walks ways =>
      rw [walks] at h
      rw [ways] at hl
      obtain rfl := List.mem_singleton.mp hl
      split at h
      · cases h
        exact ⟨.file content, stored, fun _ _ => rfl⟩
      · cases h
    | link target _ stored walks ways =>
      rw [walks] at h
      rw [ways] at hl
      rcases List.mem_cons.mp hl with rfl | later
      · exact ⟨.link target, stored, fun _ other => by cases other⟩
      -- Behind a link the walk begins anew with one link fewer, which is `behind`.
      · split at later
        · cases later
        · next more =>
          rw [if_neg more] at h
          exact behind _ _ h loc later

private theorem get?_of_mem_wayFrom {links : Nat} {l : Location} {e : Entry}
    (h : t.walk last links dir ss = .ok (.entry l e)) :
    ∀ loc ∈ t.wayFrom last links dir ss,
      ∃ x, t.get? loc = some x ∧ ∀ content, x = .file content → e = x := by
  induction links generalizing dir ss with
  | zero => exact get?_of_mem_wayWith (fun _ _ hf => by cases hf) h
  | succ links ih => exact get?_of_mem_wayWith (fun _ _ hf => ih hf) h

/-- Where a path leads is where the walk along its steps leads; there is none for an empty path or
one with a NUL. -/
theorem resolve_ok_iff {path : String} {place : Place} :
    t.resolve path last = .ok place ↔ '\x00' ∉ path.toList ∧ path ≠ "" ∧
      t.walk last maxLinks (if Path.isAbsolute path then [] else t.workingDirectory) (steps path) =
        .ok place := by
  unfold resolve
  by_cases hnul : '\x00' ∈ path.toList
  · rw [if_pos (by simpa using hnul)]
    exact ⟨fun h => (by cases h), fun h => absurd hnul h.1⟩
  · rw [if_neg (by simpa using hnul)]
    by_cases hempty : path = ""
    · rw [if_pos (by simpa using hempty)]
      exact ⟨fun h => (by cases h), fun h => absurd hempty h.2.1⟩
    · rw [if_neg (by simpa using hempty)]
      exact ⟨fun h => ⟨hnul, hempty, h⟩, fun h => h.2.2⟩

/-- A path that leads somewhere is walked to there. -/
theorem walk_of_resolve {path : String} {place : Place} (h : t.resolve path last = .ok place) :
    t.walk last maxLinks (if Path.isAbsolute path then [] else t.workingDirectory) (steps path) =
      .ok place := (resolve_ok_iff.mp h).2.2

/-- There is an entry everywhere on the way to an entry, and a file can only be the entry that the
path leads to. -/
theorem get?_of_mem_way {path : String} {l : Location} {e : Entry}
    (h : t.resolve path last = .ok (.entry l e)) :
    ∀ loc ∈ t.way path last,
      ∃ x, t.get? loc = some x ∧ ∀ content, x = .file content → e = x :=
  get?_of_mem_wayFrom (walk_of_resolve h)

/-- The tree stores what a place says. A directory need not be stored where a walk starts. -/
def Stores (t : FileTree) : Place → Prop
  | .entry loc e => e ≠ .directory → t.get? loc = some e
  | .vacant parent name => t.get? (parent ++ [name]) = none

private theorem walkWith_stores {f : Location → List String → Except OsError Place} {place : Place}
    (behind : ∀ dir ss, f dir ss = .ok place → t.Stores place)
    (h : t.walkWith last f dir ss = .ok place) : t.Stores place := by
  induction ss generalizing dir with
  | nil =>
    cases h
    intro hne
    exact absurd rfl hne
  | cons step rest ih =>
    cases t.firstStep dir step with
    | onward _ _ _ walks _ =>
      rw [walks] at h
      exact ih h
    | free vacant walks _ =>
      rw [walks] at h
      split at h
      · cases h
        exact vacant
      · cases h
    | file _ stored walks _ =>
      rw [walks] at h
      split at h
      · cases h
        exact fun _ => stored
      · cases h
    | link _ _ stored walks _ =>
      rw [walks] at h
      split at h
      · cases h
        exact fun _ => stored
      · exact behind _ _ h

/-- What a path leads to is stored in the tree, and a free name is free there. -/
theorem resolve_stores {path : String} {place : Place} (h : t.resolve path last = .ok place) :
    t.Stores place := by
  have hw := walk_of_resolve h
  generalize (if Path.isAbsolute path then [] else t.workingDirectory) = dir at hw
  generalize steps path = ss at hw
  generalize maxLinks = links at hw
  induction links generalizing dir ss with
  | zero => exact walkWith_stores (fun _ _ hf => by cases hf) hw
  | succ links ih => exact walkWith_stores (fun dir ss hf => ih dir ss hf) hw

/-- Where a place is: that of its entry, or that of its free name. -/
def Place.location : Place → Location
  | .entry loc _ => loc
  | .vacant parent name => parent ++ [name]

private theorem location_of_free_wayWith {f : Location → List String → Except OsError Place}
    {onward : Location → List String → List Location} {place : Place}
    (behind : ∀ dir ss, f dir ss = .ok place → ∀ loc ∈ onward dir ss,
      t.get? loc = none → place.location = loc)
    (h : t.walkWith last f dir ss = .ok place) :
    ∀ loc ∈ t.wayWith last onward dir ss, t.get? loc = none → place.location = loc := by
  induction ss generalizing dir with
  | nil =>
    intro loc hl
    cases hl
  | cons step rest ih =>
    intro loc hl free
    cases t.firstStep dir step with
    | onward _ _ stored walks ways =>
      rw [walks] at h
      rw [ways] at hl
      rcases List.mem_append.mp hl with passed | later
      · cases free.symm.trans (stored loc passed)
      · exact ih h loc later free
    | free _ walks ways =>
      rw [walks] at h
      rw [ways] at hl
      obtain rfl := List.mem_singleton.mp hl
      split at h
      · cases h
        rfl
      · cases h
    | file _ stored _ ways =>
      rw [ways] at hl
      obtain rfl := List.mem_singleton.mp hl
      cases free.symm.trans stored
    | link _ _ stored walks ways =>
      rw [walks] at h
      rw [ways] at hl
      rcases List.mem_cons.mp hl with rfl | later
      · cases free.symm.trans stored
      · split at later
        · cases later
        · next more =>
          rw [if_neg more] at h
          exact behind _ _ h loc later free

/-- A location on the way to a place that is free is that of the place itself. -/
theorem location_of_free_way {path : String} {place : Place} (h : t.resolve path last = .ok place) :
    ∀ loc ∈ t.way path last, t.get? loc = none → place.location = loc := by
  have hw := walk_of_resolve h
  unfold way
  generalize (if Path.isAbsolute path then [] else t.workingDirectory) = dir at hw ⊢
  generalize steps path = ss at hw ⊢
  generalize maxLinks = links at hw ⊢
  induction links generalizing dir ss with
  | zero => exact location_of_free_wayWith (fun _ _ hf => by cases hf) hw
  | succ links ih => exact location_of_free_wayWith (fun dir ss hf => ih dir ss hf) hw

/-- The tree has the entries of another one, and perhaps more. -/
structure Extends (t u : FileTree) : Prop where
  workingDirectory : t.workingDirectory = u.workingDirectory
  get? : ∀ loc e, u.get? loc = some e → t.get? loc = some e

namespace Extends

variable {a b c : FileTree}

/-- A tree extends itself. -/
theorem refl (t : FileTree) : t.Extends t := ⟨rfl, fun _ _ h => h⟩

/-- What extends a tree that extends another one extends that one. -/
theorem trans (h : a.Extends b) (h' : b.Extends c) : a.Extends c where
  workingDirectory := h.workingDirectory.trans h'.workingDirectory
  get? := fun loc e hc => h.get? loc e (h'.get? loc e hc)

/-- Where a path leads to an entry, more entries change nothing. -/
theorem resolve (h : a.Extends b) {path : String} {l : Location} {e : Entry}
    (hb : b.resolve path last = .ok (.entry l e)) :
    a.resolve path last = .ok (.entry l e) ∧ a.way path last = b.way path last := by
  rw [← hb]
  apply resolve_congr h.workingDirectory
  intro loc hl
  obtain ⟨x, hx, -⟩ := get?_of_mem_way hb loc hl
  rw [hx]
  exact h.get? loc x hx

/-- Where a path leads to a place, more entries elsewhere change nothing. -/
theorem resolve_place (h : a.Extends b) {path : String} {place : Place}
    (hb : b.resolve path last = .ok place)
    (same : a.get? place.location = b.get? place.location) :
    a.resolve path last = .ok place := by
  rw [← hb]
  refine (resolve_congr h.workingDirectory ?_).1
  intro loc hl
  cases hx : b.get? loc with
  | some x => exact h.get? loc x hx
  | none =>
    obtain rfl := location_of_free_way hb loc hl hx
    rw [same, hx]

end Extends

/-- A path exists if it leads to an entry, links followed to the end. -/
theorem exists?_iff {path : String} :
    t.exists? path = true ↔ ∃ l e, t.resolve path true = .ok (.entry l e) := by
  unfold exists? target?
  constructor
  · intro h
    split at h
    · next l e leads => exact ⟨l, e, leads⟩
    · cases h
  · rintro ⟨l, e, leads⟩
    rw [leads]
    rfl

private theorem Extends.exists? {a b : FileTree} (h : a.Extends b) {path : String}
    (hb : b.exists? path = true) : a.exists? path = true := by
  obtain ⟨l, e, leads⟩ := exists?_iff.mp hb
  exact exists?_iff.mpr ⟨l, e, (h.resolve leads).1⟩

/-- A path that does not exist in a tree does not exist in one that it extends. -/
theorem Extends.exists?_eq_false {a b : FileTree} (h : a.Extends b) {path : String}
    (ha : a.exists? path = false) : b.exists? path = false := by
  by_contra there
  have still := h.exists? (by simpa using there)
  rw [ha] at still
  cases still

/-- There is no entry at a path that leads to none, a link at its end not followed. -/
theorem hasEntry_eq_false_iff (t : FileTree) (path : String) :
    t.hasEntry path = false ↔ ∀ l e, t.resolve path false ≠ .ok (.entry l e) := by
  unfold hasEntry
  constructor
  · intro h l e he
    rw [he] at h
    cases h
  · intro h
    split
    · next heq => exact absurd heq (h _ _)
    · rfl

/-- Where a tree has no entry, one that it extends has none. -/
theorem Extends.hasEntry_eq_false {a b : FileTree} (h : a.Extends b) {path : String}
    (ha : a.hasEntry path = false) : b.hasEntry path = false := by
  rw [hasEntry_eq_false_iff] at ha ⊢
  intro l e he
  exact ha l e (h.resolve he).1

/-- A path does not lead to an entry any more when one on its way is gone. -/
theorem not_entry_of_mem_way (h : t.Extends u) {path : String} {loc : Location}
    (hl : loc ∈ t.way path last) (gone : u.get? loc = none) (l : Location) (e : Entry) :
    u.resolve path last ≠ .ok (.entry l e) := by
  intro hu
  obtain ⟨-, ways⟩ := h.resolve hu
  obtain ⟨x, hx, -⟩ := get?_of_mem_way hu loc (ways ▸ hl)
  rw [gone] at hx
  cases hx

/-! ### The end of a path -/

private theorem walkWith_dot {f : Location → List String → Except OsError Place} {dot : String}
    (hdot : dot = "." ∨ dot = "..") {l : Location} {e : Entry}
    (behind : ∀ dir ss, f dir (ss ++ [dot]) = .ok (.entry l e) → e = .directory)
    (h : t.walkWith last f dir (ss ++ [dot]) = .ok (.entry l e)) : e = .directory := by
  induction ss generalizing dir with
  | nil =>
    rcases hdot with rfl | rfl
    · cases h
      rfl
    · cases h
      rfl
  | cons step rest ih =>
    have more : (rest ++ [dot]).isEmpty = false := by simp
    rw [List.cons_append] at h
    cases t.firstStep dir step with
    | onward _ _ _ walks _ =>
      rw [walks] at h
      exact ih h
    | free _ walks _ =>
      rw [walks, more] at h
      cases h
    | file _ _ walks _ =>
      rw [walks, more] at h
      cases h
    | link _ _ _ walks _ =>
      rw [walks, more, Bool.false_and, if_neg Bool.false_ne_true, ← List.append_assoc] at h
      exact behind _ _ h

/-- A walk whose last step is dots leads to a directory, if to an entry at all. -/
theorem walk_dot {links : Nat} {dot : String} (hdot : dot = "." ∨ dot = "..") {l : Location}
    {e : Entry} (h : t.walk last links dir (ss ++ [dot]) = .ok (.entry l e)) :
    e = .directory := by
  induction links generalizing dir ss with
  | zero => exact walkWith_dot hdot (fun _ _ hf => by cases hf) h
  | succ links ih => exact walkWith_dot hdot (fun _ _ hf => ih hf) h

private theorem walkWith_last {f g : Location → List String → Except OsError Place}
    (behind : ∀ dir ss l e, g dir ss = .ok (.entry l e) → ∃ l' e', f dir ss = .ok (.entry l' e'))
    {l : Location} {e : Entry} (h : t.walkWith true g dir ss = .ok (.entry l e)) :
    ∃ l' e', t.walkWith false f dir ss = .ok (.entry l' e') := by
  induction ss generalizing dir with
  | nil => exact ⟨dir, .directory, rfl⟩
  | cons step rest ih =>
    cases t.firstStep dir step with
    | onward _ _ _ walks _ =>
      rw [walks] at h ⊢
      exact ih h
    | free _ walks _ =>
      rw [walks] at h
      split at h <;> cases h
    | file _ _ walks _ =>
      rw [walks] at h ⊢
      exact ⟨_, _, h⟩
    | link _ _ _ walks _ =>
      rw [walks, Bool.not_true, Bool.and_false, if_neg Bool.false_ne_true] at h
      rw [walks]
      split
      · exact ⟨_, _, rfl⟩
      · exact behind _ _ _ _ h

private theorem walk_last {links : Nat} {l : Location} {e : Entry}
    (h : t.walk true links dir ss = .ok (.entry l e)) :
    ∃ l' e', t.walk false links dir ss = .ok (.entry l' e') := by
  induction links generalizing dir ss l e with
  | zero => exact walkWith_last (fun _ _ _ _ hg => by cases hg) h
  | succ links ih => exact walkWith_last (fun _ _ _ _ hg => ih hg) h

/-- Where a path leads to an entry behind a link at its end, it leads to that link. -/
theorem resolve_last {path : String} {l : Location} {e : Entry}
    (h : t.resolve path true = .ok (.entry l e)) :
    ∃ l' e', t.resolve path false = .ok (.entry l' e') := by
  obtain ⟨hnul, hne, hw⟩ := resolve_ok_iff.mp h
  obtain ⟨l', e', hw'⟩ := walk_last hw
  exact ⟨l', e', resolve_ok_iff.mpr ⟨hnul, hne, hw'⟩⟩

private theorem walkWith_follow {f g : Location → List String → Except OsError Place} {l : Location}
    {e : Entry} (hne : ∀ target, e ≠ .link target)
    (behind : ∀ dir ss, f dir ss = .ok (.entry l e) → g dir ss = .ok (.entry l e))
    (h : t.walkWith false f dir ss = .ok (.entry l e)) :
    t.walkWith true g dir ss = .ok (.entry l e) := by
  induction ss generalizing dir with
  | nil => exact h
  | cons step rest ih =>
    cases t.firstStep dir step with
    | onward _ _ _ walks _ =>
      rw [walks] at h ⊢
      exact ih h
    | free _ walks _ =>
      rw [walks] at h ⊢
      exact h
    | file _ _ walks _ =>
      rw [walks] at h ⊢
      exact h
    | link target _ _ walks _ =>
      rw [walks] at h
      rw [walks, Bool.not_true, Bool.and_false, if_neg Bool.false_ne_true]
      split at h
      · cases h
        exact absurd rfl (hne target)
      · exact behind _ _ h

/-- A walk that does not end in a link ends in the same place when links at its end are followed. -/
theorem walk_follow {links : Nat} {l : Location} {e : Entry} (hne : ∀ target, e ≠ .link target)
    (h : t.walk false links dir ss = .ok (.entry l e)) :
    t.walk true links dir ss = .ok (.entry l e) := by
  induction links generalizing dir ss with
  | zero => exact walkWith_follow hne (fun _ _ hf => by cases hf) h
  | succ links ih => exact walkWith_follow hne (fun _ _ hf => ih hf) h

/-- Where a path leads to something that is no link, it leads there in either way. -/
theorem resolve_follow {path : String} {l : Location} {e : Entry}
    (hne : ∀ target, e ≠ .link target) (h : t.resolve path false = .ok (.entry l e)) :
    t.resolve path true = .ok (.entry l e) := by
  obtain ⟨hnul, hempty, hw⟩ := resolve_ok_iff.mp h
  exact resolve_ok_iff.mpr ⟨hnul, hempty, walk_follow hne hw⟩

/-! ### Dots on a path -/

/-- Steps that stay where they are do not matter on the way to a directory. -/
theorem walkWith_undotted {f g : Location → List String → Except OsError Place} {d : Location}
    (behind : ∀ dir ss ss', Path.undotted ss = Path.undotted ss' →
      (f dir ss = .ok (.entry d .directory) ↔ g dir ss' = .ok (.entry d .directory))) :
    t.walkWith true f dir ss = .ok (.entry d .directory) ↔
      t.walkWith true g dir (Path.undotted ss) = .ok (.entry d .directory) := by
  induction ss generalizing dir with
  | nil => exact Iff.rfl
  | cons step rest ih =>
    by_cases hdot : step = "."
    · subst hdot
      exact ih
    · have kept : Path.undotted (step :: rest) = step :: Path.undotted rest := by
        simp [Path.undotted, hdot]
      rw [kept]
      cases t.firstStep dir step with
      | onward _ _ _ walks _ =>
        rw [walks, walks]
        exact ih
      | free _ walks _ =>
        rw [walks, walks]
        constructor <;> intro h <;> split at h <;> cases h
      | file _ _ walks _ =>
        rw [walks, walks]
        constructor <;> intro h <;> split at h <;> cases h
      | link _ _ _ walks _ =>
        rw [walks, walks]
        simp only [Bool.not_true, Bool.and_false, Bool.false_eq_true, if_false]
        apply behind
        simp [Path.undotted]

/-- Paths whose steps differ in dots lead to the same directory. -/
theorem walk_undotted {links : Nat} {d : Location} {ss' : List String}
    (same : Path.undotted ss = Path.undotted ss') :
    t.walk true links dir ss = .ok (.entry d .directory) ↔
      t.walk true links dir ss' = .ok (.entry d .directory) := by
  induction links generalizing dir ss ss' with
  | zero =>
    have drop (ss : List String) : t.walk true 0 dir ss = .ok (.entry d .directory) ↔
        t.walk true 0 dir (Path.undotted ss) = .ok (.entry d .directory) :=
      walkWith_undotted fun _ _ _ _ => Iff.rfl
    rw [drop ss, drop ss', same]
  | succ links ih =>
    have drop (ss : List String) : t.walk true (links + 1) dir ss = .ok (.entry d .directory) ↔
        t.walk true (links + 1) dir (Path.undotted ss) = .ok (.entry d .directory) :=
      walkWith_undotted fun _ _ _ heq => ih heq
    rw [drop ss, drop ss', same]

/-! ### A name in a directory -/

/-- What a name stands for in a directory. -/
def placeAt (t : FileTree) (dir : Location) (name : String) : Place :=
  match t.get? (dir ++ [name]) with
  | none => .vacant dir name
  | some e => .entry (dir ++ [name]) e

/-- A walk that leads to a directory leads on to where one more step from there leads, if that step
needs no link to be followed. -/
theorem walkWith_step {f g : Location → List String → Except OsError Place} {step : String}
    {d : Location} {place : Place}
    (landing : ∀ follow, t.walkWith last follow d [step] = .ok place)
    (behind : ∀ dir ss, g dir ss = .ok (.entry d .directory) →
      f dir (ss ++ [step]) = .ok place)
    (h : t.walkWith true g dir ss = .ok (.entry d .directory)) :
    t.walkWith last f dir (ss ++ [step]) = .ok place := by
  induction ss generalizing dir with
  | nil =>
    cases h
    exact landing f
  | cons first rest ih =>
    have more : (rest ++ [step]).isEmpty = false := by simp
    rw [List.cons_append]
    cases t.firstStep dir first with
    | onward _ _ _ walks _ =>
      rw [walks] at h ⊢
      exact ih h
    | free _ walks _ =>
      rw [walks] at h
      split at h <;> cases h
    | file _ _ walks _ =>
      rw [walks] at h
      split at h <;> cases h
    | link _ _ _ walks _ =>
      rw [walks, Bool.not_true, Bool.and_false, if_neg Bool.false_ne_true] at h
      rw [walks, more, Bool.false_and, if_neg Bool.false_ne_true, ← List.append_assoc]
      exact behind _ _ h

/-- A walk to a directory is prolonged by one step. -/
theorem walk_step {links : Nat} {step : String} {d : Location} {place : Place}
    (landing : ∀ follow, t.walkWith last follow d [step] = .ok place)
    (h : t.walk true links dir ss = .ok (.entry d .directory)) :
    t.walk last links dir (ss ++ [step]) = .ok place := by
  induction links generalizing dir ss with
  | zero => exact walkWith_step landing (fun _ _ hg => by cases hg) h
  | succ links ih => exact walkWith_step landing (fun _ _ hg => ih hg) h

/-- A name in a directory, where it is not that of a link to be followed. -/
theorem walkWith_placeAt {name : String} (hname : Path.IsName name) {d : Location}
    (hlink : last = true → ∀ target, t.get? (d ++ [name]) ≠ some (.link target))
    (follow : Location → List String → Except OsError Place) :
    t.walkWith last follow d [name] = .ok (t.placeAt d name) := by
  simp only [walkWith, hname.ne_dot, hname.ne_dots, if_false, placeAt]
  cases he : t.get? (d ++ [name]) with
  | none => rfl
  | some x =>
    cases x with
    | directory => rfl
    | file content => rfl
    | link target =>
      cases last with
      | false => rfl
      | true => exact absurd he (hlink rfl target)

/-- A walk that does not lead to a directory leads nowhere with one more name. -/
theorem walkWith_name_error {f g : Location → List String → Except OsError Place} {name : String}
    (behind : ∀ dir ss, (∀ d, g dir ss ≠ .ok (.entry d .directory)) →
      ∃ error, f dir (ss ++ [name]) = .error error)
    (h : ∀ d, t.walkWith true g dir ss ≠ .ok (.entry d .directory)) :
    ∃ error, t.walkWith last f dir (ss ++ [name]) = .error error := by
  induction ss generalizing dir with
  | nil => exact absurd rfl (h dir)
  | cons step rest ih =>
    have more : (rest ++ [name]).isEmpty = false := by simp
    rw [List.cons_append]
    cases t.firstStep dir step with
    | onward _ _ _ walks _ =>
      rw [walks] at h ⊢
      exact ih h
    | free _ walks _ =>
      rw [walks, more]
      exact ⟨.notFound, rfl⟩
    | file _ _ walks _ =>
      rw [walks, more]
      exact ⟨.notDirectory, rfl⟩
    | link _ _ _ walks _ =>
      rw [walks, Bool.not_true, Bool.and_false, if_neg Bool.false_ne_true] at h
      rw [walks, more, Bool.false_and, if_neg Bool.false_ne_true, ← List.append_assoc]
      exact behind _ _ h

private theorem walk_name_error {links : Nat} {name : String}
    (h : ∀ d, t.walk true links dir ss ≠ .ok (.entry d .directory)) :
    ∃ error, t.walk last links dir (ss ++ [name]) = .error error := by
  induction links generalizing dir ss with
  | zero => exact walkWith_name_error (fun _ _ _ => ⟨_, rfl⟩) h
  | succ links ih => exact walkWith_name_error (fun _ _ hg => ih hg) h

/-- A slash at the end of a path does not matter on the way to a directory. -/
theorem undotted_steps (path : String) :
    Path.undotted (steps path) = Path.undotted (Path.steps path) := by
  unfold steps
  split <;> simp [Path.undotted]

/-- The steps of a name put after a directory. -/
theorem steps_join {path name : String} (hname : Path.IsName name) (hp : path ≠ "") :
    steps (Path.join path name) = Path.steps path ++ [name] := by
  have hjs := hname.not_endsInSlash_join hp
  simp only [steps, hname.steps_join hp, hjs, Bool.false_eq_true, if_false, List.append_nil]

private theorem location_placeAt (t : FileTree) (dir : Location) (name : String) :
    (t.placeAt dir name).location = dir ++ [name] := by
  unfold placeAt
  split <;> rfl

variable {path name : String} (last)

/-- A name put after the path of a directory leads to what it stands for there. -/
theorem resolve_join (hname : Path.IsName name) (hnul : '\x00' ∉ name.toList) (hp : path ≠ "")
    {d : Location}
    (hlink : last = true → ∀ target, t.get? (d ++ [name]) ≠ some (.link target))
    (h : t.resolve path true = .ok (.entry d .directory)) :
    t.resolve (Path.join path name) last = .ok (t.placeAt d name) := by
  obtain ⟨free, -, hw⟩ := resolve_ok_iff.mp h
  have nul : '\x00' ∉ (Path.join path name).toList := by
    rw [hname.mem_join hp (by decide)]
    exact not_or.mpr ⟨free, hnul⟩
  apply resolve_ok_iff.mpr
  refine ⟨nul, hname.join_ne_empty hp, ?_⟩
  rw [hname.isAbsolute_join hp, steps_join hname hp]
  exact walk_step (walkWith_placeAt hname hlink) ((walk_undotted (undotted_steps path)).mp hw)

/-- A name put after a path that leads to no directory leads nowhere. -/
theorem resolve_join_error (hname : Path.IsName name) (hp : path ≠ "")
    (h : ∀ d, t.resolve path true ≠ .ok (.entry d .directory)) :
    ∃ error, t.resolve (Path.join path name) last = .error error := by
  by_cases hnul : '\x00' ∈ (Path.join path name).toList
  · exact ⟨.nulByte, by rw [resolve, if_pos (by simpa using hnul)]⟩
  · have free : '\x00' ∉ path.toList := by
      intro hn
      exact hnul ((hname.mem_join hp (by decide)).mpr (.inl hn))
    rw [resolve, if_neg (by simpa using hnul), if_neg (by simpa using hname.join_ne_empty hp),
      hname.isAbsolute_join hp, steps_join hname hp]
    apply walk_name_error
    intro d hd
    exact h d (resolve_ok_iff.mpr ⟨free, hp, (walk_undotted (undotted_steps path)).mpr hd⟩)

/-- Where a name put after a path leads somewhere, the path leads to a directory, and the name is
one in that directory. -/
theorem location_of_resolve_join (hname : Path.IsName name) (hp : path ≠ "") {place : Place}
    (h : t.resolve (Path.join path name) false = .ok place) :
    ∃ d, t.resolve path true = .ok (.entry d .directory) ∧ place.location = d ++ [name] := by
  by_contra nowhere
  have hnul : '\x00' ∉ name.toList := by
    intro hn
    exact (resolve_ok_iff.mp h).1 ((hname.mem_join hp (by decide)).mpr (.inr hn))
  by_cases hd : ∃ d, t.resolve path true = .ok (.entry d .directory)
  · obtain ⟨d, hd⟩ := hd
    apply nowhere
    refine ⟨d, hd, ?_⟩
    rw [resolve_join false hname hnul hp (by simp) hd] at h
    cases h
    exact t.location_placeAt d name
  · push Not at hd
    obtain ⟨error, failed⟩ := resolve_join_error false hname hp hd
    rw [failed] at h
    cases h

/-- Where a name put after a path leads to anything, the path leads to a directory. -/
theorem directory_of_exists?_join (hname : Path.IsName name) (hp : path ≠ "")
    (h : t.exists? (Path.join path name) = true) :
    ∃ d, t.resolve path true = .ok (.entry d .directory) := by
  obtain ⟨l, e, leads⟩ := exists?_iff.mp h
  obtain ⟨l', e', leads'⟩ := resolve_last leads
  obtain ⟨d, hd, -⟩ := location_of_resolve_join hname hp leads'
  exact ⟨d, hd⟩

end LuaHost.FileTree
