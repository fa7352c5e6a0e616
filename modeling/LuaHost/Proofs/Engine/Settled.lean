import LuaHost.Proofs.Engine.Kept

/-!
# Engines between operations

Between two operations the registry is well-formed and every script in it is complete, exactly the
contexts of the registered scripts are alive, and neither a load nor a call is in progress.
-/

namespace LuaHost.Engine

/-- What holds of an engine whenever no operation is in progress. -/
structure Settled (e : Engine) : Prop where
  wellFormed : e.core.registry.WellFormed
  complete : ∀ s ∈ e.scripts, s.complete = true
  contexts : e.contexts.map Prod.fst = e.scripts.map Script.context
  distinct : (e.scripts.map Script.context).Nodup
  created : ∀ s ∈ e.scripts, s.context.number ≤ e.core.created
  live : e.core.created = e.core.destroyed + e.scripts.length
  loading : e.core.loading = none
  active : e.core.active = none

/-- A new engine is settled. -/
theorem settled_new (options : Options) (license : String) (files : FileTree)
    (environment : Environment) (budget : Nat) :
    (new options license files environment budget).Settled where
  wellFormed := Registry.wellFormed_empty
  complete := by intro s hs; cases hs
  contexts := rfl
  distinct := .nil
  created := by intro s hs; cases hs
  live := rfl
  loading := rfl
  active := rfl

namespace Settled

variable {e e' : Engine}

/-- An engine is settled by its registry, its contexts and what is in progress alone. -/
theorem congr (h : e.Settled) (registry : e'.core.registry = e.core.registry)
    (contexts : e'.contexts.map Prod.fst = e.contexts.map Prod.fst)
    (created : e'.core.created = e.core.created)
    (destroyed : e'.core.destroyed = e.core.destroyed)
    (loading : e'.core.loading = e.core.loading)
    (active : e'.core.active = e.core.active) : e'.Settled where
  wellFormed := by rw [registry]; exact h.wellFormed
  complete := by rw [scripts, registry]; exact h.complete
  contexts := by rw [contexts, scripts, registry]; exact h.contexts
  distinct := by rw [scripts, registry]; exact h.distinct
  created := by rw [scripts, registry, created]; exact h.created
  live := by rw [scripts, registry, created, destroyed]; exact h.live
  loading := loading.trans h.loading
  active := active.trans h.active

/-- An engine that is kept stays settled. -/
theorem of_kept (h : e.Settled) (hk : e.Kept e') : e'.Settled :=
  h.congr hk.core.registry hk.contexts hk.core.created hk.core.destroyed hk.core.loading
    hk.core.active

/-- No load waits. -/
theorem closed (h : e.Settled) : e.core.Closed := Core.closed_of_loading_eq_none h.loading

/-- No script is active that is not registered. -/
theorem activeKnown (h : e.Settled) : ActiveKnown e.core := activeKnown_of_eq_none h.active

/-- The context that is created next is that of no script. -/
theorem fresh (h : e.Settled) : ⟨e.core.created + 1⟩ ∉ e.contexts.map Prod.fst := by
  rw [h.contexts]
  intro hm
  obtain ⟨s, hs, he⟩ := List.mem_map.mp hm
  have hb := h.created s hs
  rw [he] at hb
  exact absurd hb (Nat.not_succ_le_self _)

/-- Two scripts with one context are one script. -/
theorem eq_of_context (h : e.Settled) {s t : Script} (hs : s ∈ e.scripts) (ht : t ∈ e.scripts)
    (hc : s.context = t.context) : s = t := List.inj_on_of_nodup_map h.distinct hs ht hc

/-- Without one of its scripts and its context a settled engine is settled. -/
theorem without (h : e.Settled) {id : ScriptId} {s : Script} (hs : e.script? id = some s) :
    (e.without s).Settled := by
  obtain ⟨hm, rfl⟩ := (h.wellFormed.get?_eq_some_iff id s).mp hs
  have scripts : (e.without s).scripts = e.scripts.filter (·.id ≠ s.id) :=
    Registry.scripts_remove _ _
  have mem {t : Script} (ht : t ∈ (e.without s).scripts) : t ∈ e.scripts := by
    rw [scripts] at ht
    exact (List.mem_filter.mp ht).1
  refine ⟨h.wellFormed.remove s.id, fun t ht => h.complete t (mem ht), ?_, ?_,
    fun t ht => h.created t (mem ht), ?_, h.loading, ?_⟩
  · have same : e.scripts.filter (·.context ≠ s.context) = e.scripts.filter (·.id ≠ s.id) := by
      refine List.filter_congr fun t ht => decide_eq_decide.mpr (not_congr ?_)
      constructor
      · intro hc
        exact congrArg Script.id (h.eq_of_context ht hm hc)
      · intro hid
        exact congrArg Script.context (h.wellFormed.eq_of_id ht hm hid)
    calc (e.contexts.filter (·.1 ≠ s.context)).map Prod.fst
        = (e.contexts.map Prod.fst).filter (· ≠ s.context) := by rw [List.filter_map]; rfl
      _ = (e.scripts.filter (·.context ≠ s.context)).map Script.context := by
        rw [h.contexts, List.filter_map]; rfl
      _ = (e.without s).scripts.map Script.context := by rw [same, scripts]
  · rw [scripts]
    exact h.distinct.sublist (List.filter_sublist.map _)
  · have one : (e.without s).scripts.length + 1 = e.scripts.length :=
      h.wellFormed.length_remove hs
    have hl := h.live
    show e.core.created = e.core.destroyed + 1 + _
    omega
  · show (if e.core.active = some s.id then _ else e.core.active) = none
    rw [h.active]
    rfl

/-- An unload leaves the engine settled. -/
theorem unload (h : e.Settled) (id : ScriptId) : (e.unload id).1.Settled := by
  cases hs : e.script? id with
  | none =>
    simp only [Engine.unload, hs]
    exact h
  | some s =>
    refine Settled.of_kept ?_ (kept_unload h.closed h.activeKnown hs).2
    exact (h.without hs).congr rfl rfl rfl rfl rfl rfl

end Settled

end LuaHost.Engine
