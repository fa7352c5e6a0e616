import LuaHost.Registry
import Mathlib.Data.List.Nodup

/-!
# Well-formed registries

Scripts stand in the order of their numbers, no two have one name, and the index of names says
what the list of scripts says. Adding a script under a free name and removing one keep this, and
removing the script that was just added gives the registry back, but for the number used up.
-/

namespace LuaHost.Registry

/-- The list of scripts and the index of names fit together. -/
structure WellFormed (r : Registry) : Prop where
  increasing : r.scripts.Pairwise fun s t => s.id.number < t.id.number
  bounded : ∀ s ∈ r.scripts, s.id.number ≤ r.lastId
  named : (r.scripts.map Script.name).Nodup
  indexed : ∀ name id, r.find? name = some id ↔ ∃ s ∈ r.scripts, s.name = name ∧ s.id = id

/-- A registry without scripts is well-formed. -/
theorem wellFormed_empty : empty.WellFormed where
  increasing := .nil
  bounded := by simp [empty]
  named := by simp [empty]
  indexed := by simp [empty, find?]

/-- A script that is found is registered. -/
theorem get?_mem {r : Registry} {id : ScriptId} {s : Script} (h : r.get? id = some s) :
    s ∈ r.scripts := List.mem_of_find?_eq_some h

/-- A script is found under its own number. -/
theorem id_of_get? {r : Registry} {id : ScriptId} {s : Script} (h : r.get? id = some s) :
    s.id = id := by
  simpa using List.find?_some h

/-- A number is registered if a script is found under it. -/
theorem contains_eq (r : Registry) (id : ScriptId) : r.contains id = (r.get? id).isSome := by
  rw [Bool.eq_iff_iff]
  simp only [contains, get?, List.any_eq_true, List.find?_isSome]

namespace WellFormed

variable {r : Registry}

/-- Scripts have numbers of their own. -/
theorem nodup_ids (h : r.WellFormed) : (r.scripts.map Script.id).Nodup := by
  refine List.pairwise_map.mpr (h.increasing.imp ?_)
  intro s t hlt heq
  rw [heq] at hlt
  exact Nat.lt_irrefl _ hlt

/-- Two scripts with one number are one script. -/
theorem eq_of_id (h : r.WellFormed) {s t : Script} (hs : s ∈ r.scripts) (ht : t ∈ r.scripts)
    (hid : s.id = t.id) : s = t := List.inj_on_of_nodup_map h.nodup_ids hs ht hid

/-- The script with a number is found under it. -/
theorem get?_eq_some_iff (h : r.WellFormed) (id : ScriptId) (s : Script) :
    r.get? id = some s ↔ s ∈ r.scripts ∧ s.id = id := by
  constructor
  · intro hg
    exact ⟨get?_mem hg, id_of_get? hg⟩
  · rintro ⟨hs, hid⟩
    cases hg : r.get? id with
    | none =>
      have hn := List.find?_eq_none.mp hg s hs
      simp [hid] at hn
    | some t => exact congrArg some (h.eq_of_id (get?_mem hg) hs ((id_of_get? hg).trans hid.symm))

/-- A free name is that of no script. -/
theorem name_ne (h : r.WellFormed) {name : String} (free : r.find? name = none) {s : Script}
    (hs : s ∈ r.scripts) : s.name ≠ name := by
  intro hn
  have := (h.indexed name s.id).mpr ⟨s, hs, hn, rfl⟩
  rw [free] at this
  cases this

/-- The next number is that of no script. -/
theorem id_ne_nextId (h : r.WellFormed) {s : Script} (hs : s ∈ r.scripts) : s.id ≠ r.nextId := by
  intro he
  have hb := h.bounded s hs
  rw [he] at hb
  exact absurd hb (Nat.not_succ_le_self _)

private theorem get?_nextId (h : r.WellFormed) : r.get? r.nextId = none := by
  refine List.find?_eq_none.mpr fun s hs => ?_
  simpa using h.id_ne_nextId hs

private theorem indexed_add (h : r.WellFormed) {about : Registration}
    (free : r.find? about.name = none) (filename : String) (context : ContextId) (name : String)
    (id : ScriptId) : (r.add filename about context).find? name = some id ↔
      ∃ s ∈ (r.add filename about context).scripts, s.name = name ∧ s.id = id := by
  rw [find?_add]
  split
  · next hn =>
    subst hn
    constructor
    · intro he
      cases he
      exact ⟨_, List.mem_append_right _ (List.mem_singleton.mpr rfl), rfl, rfl⟩
    · rintro ⟨s, hs, hn, rfl⟩
      rcases List.mem_append.mp hs with hs | hs
      · exact absurd hn (h.name_ne free hs)
      · obtain rfl := List.mem_singleton.mp hs
        rfl
  · next hn =>
    rw [h.indexed name id]
    constructor
    · rintro ⟨s, hs, he⟩
      exact ⟨s, List.mem_append_left _ hs, he⟩
    · rintro ⟨s, hs, hsn, he⟩
      rcases List.mem_append.mp hs with hs | hs
      · exact ⟨s, hs, hsn, he⟩
      · obtain rfl := List.mem_singleton.mp hs
        exact absurd hsn.symm hn

/-- A script added under a free name keeps the registry well-formed. -/
theorem add (h : r.WellFormed) {about : Registration} (free : r.find? about.name = none)
    (filename : String) (context : ContextId) : (r.add filename about context).WellFormed where
  increasing := by
    refine List.pairwise_append.mpr ⟨h.increasing, List.pairwise_singleton _ _, ?_⟩
    intro s hs t ht
    obtain rfl := List.mem_singleton.mp ht
    exact Nat.lt_succ_of_le (h.bounded s hs)
  bounded := by
    intro s hs
    rcases List.mem_append.mp hs with hs | hs
    · exact Nat.le_succ_of_le (h.bounded s hs)
    · obtain rfl := List.mem_singleton.mp hs
      exact Nat.le_refl _
  named := by
    simpa [Registry.add, Script.name, List.nodup_append] using
      ⟨h.named, fun s hs hn => h.name_ne free hs hn⟩
  indexed := h.indexed_add free filename context

private theorem indexed_remove (h : r.WellFormed) {t : Script} (hg : r.get? t.id = some t)
    (name : String) (i : ScriptId) : (r.remove t.id).find? name = some i ↔
      ∃ s ∈ (r.remove t.id).scripts, s.name = name ∧ s.id = i := by
  have ht := get?_mem hg
  rw [scripts_remove, find?_remove r name hg]
  split
  · next hn =>
    subst hn
    constructor
    · intro he
      cases he
    · rintro ⟨s, hs, hn, -⟩
      obtain ⟨hs, hne⟩ := List.mem_filter.mp hs
      have heq : s = t := List.inj_on_of_nodup_map h.named hs ht hn
      simp [heq] at hne
  · next hn =>
    rw [h.indexed name i]
    constructor
    · rintro ⟨s, hs, hsn, he⟩
      refine ⟨s, List.mem_filter.mpr ⟨hs, ?_⟩, hsn, he⟩
      have hne : s.id ≠ t.id := fun hid => hn (hsn.symm.trans (h.eq_of_id hs ht hid ▸ rfl))
      simpa using hne
    · rintro ⟨s, hs, he⟩
      exact ⟨s, (List.mem_filter.mp hs).1, he⟩

/-- A registry without one of its scripts is well-formed. -/
theorem remove (h : r.WellFormed) (id : ScriptId) : (r.remove id).WellFormed := by
  cases hg : r.get? id with
  | none =>
    have same : r.remove id = r := by simp only [Registry.remove, hg]
    rw [same]
    exact h
  | some t =>
    obtain ⟨-, rfl⟩ := (h.get?_eq_some_iff id t).mp hg
    refine ⟨?_, ?_, ?_, h.indexed_remove hg⟩
    · rw [scripts_remove]
      exact h.increasing.filter _
    · intro s hs
      rw [scripts_remove] at hs
      rw [lastId_remove]
      exact h.bounded s (List.mem_filter.mp hs).1
    · rw [scripts_remove]
      exact h.named.sublist (List.filter_sublist.map _)

/-- Removing a script takes that script away and no other. -/
theorem perm_remove (h : r.WellFormed) {id : ScriptId} {s : Script} (hs : r.get? id = some s) :
    r.scripts.Perm (s :: (r.remove id).scripts) := by
  obtain ⟨hm, rfl⟩ := (h.get?_eq_some_iff id s).mp hs
  have others : r.scripts.erase s = r.scripts.filter (·.id ≠ s.id) := by
    rw [h.nodup_ids.of_map.erase_eq_filter]
    refine List.filter_congr fun t ht => ?_
    by_cases he : t.id = s.id
    · simp [h.eq_of_id ht hm he]
    · have hne : t ≠ s := fun hts => he (congrArg Script.id hts)
      simp [he, hne]
  rw [scripts_remove, ← others]
  exact List.perm_cons_erase hm

/-- The scripts with other numbers than one of them are those before it and those after it. -/
theorem filter_of_split (h : r.WellFormed) {s : Script} {before after : List Script}
    (split : r.scripts = before ++ s :: after) :
    r.scripts.filter (·.id ≠ s.id) = before ++ after := by
  have alone : s.id ∉ (before ++ after).map Script.id := by
    have ids := h.nodup_ids
    rw [split, List.map_append, List.map_cons, List.nodup_middle, ← List.map_append] at ids
    exact (List.nodup_cons.mp ids).1
  have others : (before ++ after).filter (·.id ≠ s.id) = before ++ after := by
    refine List.filter_eq_self.mpr fun t ht => ?_
    have hne : t.id ≠ s.id := fun he => alone (List.mem_map.mpr ⟨t, ht, he⟩)
    simpa using hne
  rw [split, List.filter_append, List.filter_cons_of_neg (by simp), ← List.filter_append, others]

/-- Removing a script leaves the ones before it and the ones after it. -/
theorem split_remove (h : r.WellFormed) {id : ScriptId} {s : Script} (hs : r.get? id = some s) :
    ∃ before after, r.scripts = before ++ s :: after ∧
      (r.remove id).scripts = before ++ after := by
  obtain ⟨hm, rfl⟩ := (h.get?_eq_some_iff id s).mp hs
  obtain ⟨before, after, split⟩ := List.append_of_mem hm
  exact ⟨before, after, split, (scripts_remove r s.id).trans (h.filter_of_split split)⟩

/-- Removing a script takes exactly one away. -/
theorem length_remove (h : r.WellFormed) {id : ScriptId} {s : Script} (hs : r.get? id = some s) :
    (r.remove id).scripts.length + 1 = r.scripts.length :=
  (h.perm_remove hs).length_eq.symm

/-- Two scripts with one name are one script. -/
theorem eq_of_name (h : r.WellFormed) {s t : Script} (hs : s ∈ r.scripts) (ht : t ∈ r.scripts)
    (hn : s.name = t.name) : s = t := List.inj_on_of_nodup_map h.named hs ht hn

/-- Without the scripts of a name that name is free, and every other name leads where it did. -/
theorem find?_of_filter {r' : Registry} (h : r.WellFormed) (h' : r'.WellFormed) {free : String}
    (scripts : r'.scripts = r.scripts.filter (·.name ≠ free)) (name : String) :
    r'.find? name = if name = free then none else r.find? name := by
  refine Option.ext fun id => ?_
  rw [h'.indexed, scripts]
  split
  · next same =>
    constructor
    · rintro ⟨s, hs, named, -⟩
      have kept := of_decide_eq_true (List.mem_filter.mp hs).2
      exact absurd (named.trans same) kept
    · intro nowhere
      cases nowhere
  · next other =>
    rw [h.indexed]
    constructor
    · rintro ⟨s, hs, found⟩
      exact ⟨s, (List.mem_filter.mp hs).1, found⟩
    · rintro ⟨s, hs, rfl, rfl⟩
      exact ⟨s, List.mem_filter.mpr ⟨hs, by simpa using other⟩, rfl, rfl⟩

/-! ### The script that was added last -/

/-- A script that was added is found under its new number. -/
theorem get?_add_nextId (h : r.WellFormed) (filename : String) (about : Registration)
    (context : ContextId) :
    (r.add filename about context).get? r.nextId =
      some ⟨r.nextId, filename, about, context, false⟩ := by
  have hn : r.scripts.find? (·.id = r.nextId) = none := h.get?_nextId
  simp [get?, Registry.add, List.find?_append, hn]

/-- Removing the script that was just added gives the registry back, but for its number. -/
theorem remove_add (h : r.WellFormed) {about : Registration}
    (free : r.find? about.name = none) (filename : String) (context : ContextId) :
    (r.add filename about context).remove r.nextId = { r with lastId := r.lastId + 1 } := by
  have scripts : r.scripts.filter (·.id ≠ r.nextId) = r.scripts :=
    List.filter_eq_self.mpr fun s hs => by simpa using h.id_ne_nextId hs
  have names : r.byName.filter (·.1 ≠ about.name) = r.byName := by
    refine List.filter_eq_self.mpr fun x hx => ?_
    have hl := List.lookup_eq_none_iff.mp free x hx
    have hne : x.1 ≠ about.name := fun he => by simp [he] at hl
    simpa using hne
  simp only [Registry.remove, h.get?_add_nextId, Registry.mk.injEq]
  refine ⟨?_, ?_, rfl⟩
  · rw [Registry.add, List.filter_append, scripts, List.filter_cons_of_neg (by simp),
      List.filter_nil, List.append_nil]
  · rw [Registry.add, List.filter_cons_of_neg (by simp [Script.name])]
    exact (congrArg (List.filter _) names).trans names

/-- Noting that the script added last is complete. -/
theorem scripts_setComplete_add (h : r.WellFormed) (filename : String) (about : Registration)
    (context : ContextId) :
    ((r.add filename about context).setComplete r.nextId).scripts =
      r.scripts ++ [⟨r.nextId, filename, about, context, true⟩] := by
  have others : r.scripts.map (fun s => if s.id = r.nextId then { s with complete := true } else s)
      = r.scripts := by
    refine (List.map_congr_left fun s hs => ?_).trans (List.map_id _)
    simp [h.id_ne_nextId hs]
  simp only [setComplete, Registry.add, List.map_append, others]
  simp

/-- Noting that a load is complete changes no name and no number. -/
theorem setComplete (h : r.WellFormed) (id : ScriptId) : (r.setComplete id).WellFormed := by
  have keeps (s : Script) :
      (if s.id = id then { s with complete := true } else s).id = s.id ∧
        (if s.id = id then { s with complete := true } else s).name = s.name := by
    split <;> exact ⟨rfl, rfl⟩
  refine ⟨?_, ?_, ?_, ?_⟩
  · refine List.pairwise_map.mpr (h.increasing.imp fun {s t} hlt => ?_)
    rw [(keeps s).1, (keeps t).1]
    exact hlt
  · intro s hs
    obtain ⟨t, ht, rfl⟩ := List.mem_map.mp hs
    rw [(keeps t).1]
    exact h.bounded t ht
  · have hn : (r.setComplete id).scripts.map Script.name = r.scripts.map Script.name := by
      simp only [Registry.setComplete, List.map_map]
      exact List.map_congr_left fun s _ => (keeps s).2
    rw [hn]
    exact h.named
  · intro name i
    refine (h.indexed name i).trans ?_
    simp only [Registry.setComplete, List.mem_map]
    constructor
    · rintro ⟨s, hs, hn, hi⟩
      exact ⟨_, ⟨s, hs, rfl⟩, (keeps s).2.trans hn, (keeps s).1.trans hi⟩
    · rintro ⟨_, ⟨s, hs, rfl⟩, hn, hi⟩
      exact ⟨s, hs, (keeps s).2.symm.trans hn, (keeps s).1.symm.trans hi⟩

end WellFormed

end LuaHost.Registry
