import LuaHost.HostTable
import Mathlib.Data.List.Dedup
import Mathlib.Data.List.Induction

/-!
# What a host table holds

A host table is given by what stands under its keys. So a table that is filled from pairs holds the
last cell of every key, and the order of the pairs does not matter unless a key comes with
different cells.
-/

namespace LuaHost

/-- What is found under a key is there. -/
theorem mem_of_lookup {α β : Type} [BEq α] [LawfulBEq α] {k : α} {v : β} {pairs : List (α × β)}
    (h : pairs.lookup k = some v) : (k, v) ∈ pairs := by
  obtain ⟨before, behind, rfl, -⟩ := List.lookup_eq_some_iff.mp h
  exact List.mem_append_right before List.mem_cons_self

/-- Nothing is found under a key that is not there. -/
theorem lookup_eq_none_iff_notMem {α β : Type} [BEq α] [LawfulBEq α] {k : α}
    {pairs : List (α × β)} : pairs.lookup k = none ↔ k ∉ pairs.map Prod.fst := by
  rw [List.lookup_eq_none_iff, List.mem_map]
  constructor
  · rintro absent ⟨p, there, rfl⟩
    simpa using absent p there
  · intro absent p there
    exact bne_iff_ne.mpr fun same => absent ⟨p, there, same.symm⟩

namespace HostTable

/-! ### Pairs -/

/-- Every key comes with one cell. -/
def Agreeing (pairs : List (String × Cell)) : Prop :=
  ∀ key cell cell', (key, cell) ∈ pairs → (key, cell') ∈ pairs → cell = cell'

/-- Pairs with keys of their own agree. -/
theorem agreeing_of_nodup {pairs : List (String × Cell)} (h : (pairs.map Prod.fst).Nodup) :
    Agreeing pairs := fun _ _ _ there there' =>
  congrArg Prod.snd (List.inj_on_of_nodup_map h there there' rfl)

private theorem Agreeing.perm {pairs pairs' : List (String × Cell)} (h : Agreeing pairs)
    (perm : pairs.Perm pairs') : Agreeing pairs' := fun key cell cell' there there' =>
  h key cell cell' (perm.mem_iff.mpr there) (perm.mem_iff.mpr there')

private theorem Agreeing.lookup_eq_some_iff {pairs : List (String × Cell)} (h : Agreeing pairs)
    {key : String} {cell : Cell} : pairs.lookup key = some cell ↔ (key, cell) ∈ pairs := by
  refine ⟨mem_of_lookup, fun there => ?_⟩
  cases found : pairs.lookup key with
  | none =>
    have absent := lookup_eq_none_iff_notMem.mp found
    exact absurd (List.mem_map_of_mem there) absent
  | some c => rw [h key c cell (mem_of_lookup found) there]

/-! ### Entries in order -/

private theorem mem_insert {key : String} {cell : Cell} {entries : List (String × Cell)}
    {e : String × Cell} (h : e ∈ insert key cell entries) : e = (key, cell) ∨ e ∈ entries := by
  induction entries with
  | nil => exact .inl (List.mem_singleton.mp h)
  | cons first rest ih =>
    simp only [insert] at h
    split at h
    · exact (List.mem_cons.mp h).imp_right (List.mem_cons_of_mem first)
    · split at h
      · exact List.mem_cons.mp h
      · rcases List.mem_cons.mp h with rfl | h
        · exact .inr List.mem_cons_self
        · exact (ih h).imp_right (List.mem_cons_of_mem _)

private theorem Ordered.insert {entries : List (String × Cell)} (h : Ordered entries) (key : String)
    (cell : Cell) : Ordered (insert key cell entries) := by
  induction entries with
  | nil => exact List.pairwise_singleton _ _
  | cons first rest ih =>
    obtain ⟨k, c⟩ := first
    obtain ⟨below, rest_ordered⟩ := List.pairwise_cons.mp h
    simp only [HostTable.insert]
    split
    · next same =>
      subst same
      exact List.pairwise_cons.mpr ⟨below, rest_ordered⟩
    · next differs =>
      split
      · next before =>
        refine List.pairwise_cons.mpr ⟨fun e he => ?_, h⟩
        rcases List.mem_cons.mp he with rfl | he
        · exact before
        · exact String.lt_trans before (below e he)
      · next behind =>
        refine List.pairwise_cons.mpr ⟨fun e he => ?_, ih rest_ordered⟩
        rcases mem_insert he with rfl | he
        · refine Decidable.byContradiction fun above => differs ?_
          exact String.le_antisymm (String.not_lt.mp above) (String.not_lt.mp behind)
        · exact below e he

/-- Entries in order have keys of their own. -/
theorem Ordered.nodup_keys {entries : List (String × Cell)} (h : Ordered entries) :
    (entries.map Prod.fst).Nodup := by
  have increasing : (entries.map Prod.fst).Pairwise (· < ·) := List.pairwise_map.mpr h
  refine increasing.imp fun {k k'} before same => ?_
  subst same
  exact String.lt_irrefl k before

/-- Entries in order agree. -/
theorem Ordered.agreeing {entries : List (String × Cell)} (h : Ordered entries) :
    Agreeing entries := agreeing_of_nodup h.nodup_keys

/-- Entries in order are given by what stands under the keys. -/
theorem Ordered.ext {a b : List (String × Cell)} (ha : Ordered a) (hb : Ordered b)
    (same : ∀ key, a.lookup key = b.lookup key) : a = b := by
  have members : ∀ e : String × Cell, e ∈ a ↔ e ∈ b := fun ⟨key, cell⟩ => by
    rw [← ha.agreeing.lookup_eq_some_iff, same, hb.agreeing.lookup_eq_some_iff]
  have perm : a.Perm b :=
    (List.perm_ext_iff_of_nodup ha.nodup_keys.of_map hb.nodup_keys.of_map).mpr members
  exact perm.eq_of_pairwise (fun _ _ _ _ before behind => absurd behind (String.lt_asymm before))
    ha hb

/-! ### Tables filled from pairs -/

/-- Put pairs into entries one after the other. -/
def gather (pairs : List (String × Cell)) : List (String × Cell) :=
  pairs.foldl (fun entries (key, cell) => insert key cell entries) []

/-- The pair that comes last is put in last. -/
theorem gather_concat (pairs : List (String × Cell)) (key : String) (cell : Cell) :
    gather (pairs ++ [(key, cell)]) = insert key cell (gather pairs) := by
  rw [gather, List.foldl_append]
  rfl

/-- A table that is made of pairs is in order. -/
theorem ordered_ofPairs (pairs : List (String × String)) : Ordered (ofPairs pairs).entries := by
  unfold ofPairs
  induction pairs using List.reverseRecOn with
  | nil => exact List.Pairwise.nil
  | append_singleton pairs last ih =>
    rw [List.foldl_append]
    exact ih.insert _ _

private theorem ordered_gather (pairs : List (String × Cell)) : Ordered (gather pairs) := by
  induction pairs using List.reverseRecOn with
  | nil => exact List.Pairwise.nil
  | append_singleton pairs last ih =>
    rw [gather_concat]
    exact ih.insert _ _

/-- A key holds its last cell. -/
theorem lookup_gather (pairs : List (String × Cell)) (key : String) :
    (gather pairs).lookup key = pairs.reverse.lookup key := by
  induction pairs using List.reverseRecOn with
  | nil => rfl
  | append_singleton pairs last ih =>
    rw [gather_concat, lookup_insert, ih, List.reverse_concat, ← lookup_cons_eq_ite]

/-- What comes last is held. -/
theorem lookup_gather_concat (pairs : List (String × Cell)) (key : String) (cell : Cell) :
    (gather (pairs ++ [(key, cell)])).lookup key = some cell := by
  rw [lookup_gather, List.reverse_concat, lookup_cons_eq_ite, if_pos rfl]

/-- Gathering keeps every key and adds none. -/
theorem mem_keys_gather {pairs : List (String × Cell)} {key : String} :
    key ∈ (gather pairs).map Prod.fst ↔ key ∈ pairs.map Prod.fst := by
  rw [← not_iff_not, ← lookup_eq_none_iff_notMem, lookup_gather, lookup_eq_none_iff_notMem,
    List.map_reverse, List.mem_reverse]

/-- There is one entry for every key. -/
theorem length_gather (pairs : List (String × Cell)) :
    (gather pairs).length = (pairs.map Prod.fst).dedup.length := by
  have keys : ((gather pairs).map Prod.fst).Perm (pairs.map Prod.fst).dedup :=
    (List.perm_ext_iff_of_nodup (ordered_gather pairs).nodup_keys (List.nodup_dedup _)).mpr
      fun key => mem_keys_gather.trans List.mem_dedup.symm
  rw [← keys.length_eq, List.length_map]

private theorem Agreeing.lookup_gather_eq_some_iff {pairs : List (String × Cell)}
    (h : Agreeing pairs)
    {key : String} {cell : Cell} :
    (gather pairs).lookup key = some cell ↔ (key, cell) ∈ pairs := by
  have reversed := h.perm (List.reverse_perm pairs).symm
  rw [lookup_gather, reversed.lookup_eq_some_iff, List.mem_reverse]

/-- The order of pairs does not matter when every key comes with one cell. -/
theorem Agreeing.gather_eq {pairs pairs' : List (String × Cell)} (h : Agreeing pairs)
    (perm : pairs.Perm pairs') : gather pairs = gather pairs' := by
  refine (ordered_gather pairs).ext (ordered_gather pairs') fun key => Option.ext fun cell => ?_
  rw [h.lookup_gather_eq_some_iff, (h.perm perm).lookup_gather_eq_some_iff, perm.mem_iff]

/-- Filling a table from its own entries gives the table back. -/
theorem Ordered.gather_eq {entries : List (String × Cell)} (h : Ordered entries) :
    gather entries = entries := by
  refine (ordered_gather entries).ext h fun key => Option.ext fun cell => ?_
  rw [h.agreeing.lookup_gather_eq_some_iff, h.agreeing.lookup_eq_some_iff]

end HostTable

end LuaHost
