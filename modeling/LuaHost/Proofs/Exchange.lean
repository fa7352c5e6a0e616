import LuaHost.Exchange
import LuaHost.Proofs.Encoding
import LuaHost.Proofs.Handle
import LuaHost.Proofs.HostTable
import Mathlib.Data.List.Nodup

/-!
# Tables taken over from scripts

A table of a script is taken over field by field. Its string keys are read as texts, and fields
whose keys read as the same text end up in one entry. A host table that went to a script comes back
without its nulls.
-/

namespace LuaHost.Exchange

open HostTable (Agreeing Ordered gather)
open Lua (Table Value)

/-! ### Fields that are taken over -/

/-- What a field is taken over as; only those under strings are. -/
def taken? (kind : ItemKind) (field : Value × Value) : Option (String × Cell) :=
  (text? field.1).map (·, toCell kind field.2)

private theorem toHostTable_eq (table : Table) (keyKind cellKind : ItemKind) :
    toHostTable table keyKind cellKind =
      ⟨keyKind, cellKind, gather (table.fields.filterMap (taken? cellKind))⟩ := by
  unfold toHostTable
  induction table.fields using List.reverseRecOn with
  | nil => rfl
  | append_singleton fields field ih =>
    rw [List.foldl_append, ih, List.foldl_cons, List.foldl_nil, List.filterMap_append]
    unfold takeField
    cases key : text? field.1 with
    | none => simp [taken?, key]
    | some k => simp [taken?, key, HostTable.gather_concat, HostTable.set]

/-- The bytes of a string value. -/
def bytes? : Value → Option ByteArray
  | .str s => some s
  | _ => none

private theorem text?_eq (v : Value) : text? v = (bytes? v).map Text.decode := by
  cases v <;> rfl

/-- The string keys of a table. -/
def stringKeys (table : Table) : List ByteArray := (table.fields.map Prod.fst).filterMap bytes?

private theorem map_fst_filterMap_taken? (table : Table) (kind : ItemKind) :
    (table.fields.filterMap (taken? kind)).map Prod.fst = (stringKeys table).map Text.decode := by
  rw [stringKeys, List.filterMap_map, List.map_filterMap, List.map_filterMap]
  refine List.filterMap_congr fun field _ => ?_
  rw [taken?, Option.map_map, text?_eq, Option.map_map]
  rfl

/-- Fields whose keys read as the same text hold values that are taken over alike. -/
def Unambiguous (kind : ItemKind) (table : Table) : Prop :=
  ∀ f ∈ table.fields, ∀ g ∈ table.fields, ∀ key, text? f.1 = some key → text? g.1 = some key →
    toCell kind f.2 = toCell kind g.2

private theorem mem_filterMap_taken? {kind : ItemKind} {fields : List (Value × Value)}
    {key : String}
    {cell : Cell} : (key, cell) ∈ fields.filterMap (taken? kind) ↔
      ∃ f ∈ fields, text? f.1 = some key ∧ toCell kind f.2 = cell := by
  simp [taken?, List.mem_filterMap]

private theorem unambiguous_iff {kind : ItemKind} {table : Table} :
    Unambiguous kind table ↔ Agreeing (table.fields.filterMap (taken? kind)) := by
  constructor
  · intro h key cell cell' there there'
    obtain ⟨f, hf, fkey, rfl⟩ := mem_filterMap_taken?.mp there
    obtain ⟨g, hg, gkey, rfl⟩ := mem_filterMap_taken?.mp there'
    exact h f hf g hg key fkey gkey
  · intro h f hf g hg key fkey gkey
    exact h key _ _ (mem_filterMap_taken?.mpr ⟨f, hf, fkey, rfl⟩)
      (mem_filterMap_taken?.mpr ⟨g, hg, gkey, rfl⟩)

/-- The order of the fields does not matter unless two of them are taken over under one key with
different cells. -/
theorem toHostTable_perm {o o' : Table} {keyKind cellKind : ItemKind}
    (unambiguous : Unambiguous cellKind o) (perm : o.fields.Perm o'.fields) :
    toHostTable o keyKind cellKind = toHostTable o' keyKind cellKind := by
  rw [toHostTable_eq, toHostTable_eq,
    (unambiguous_iff.mp unambiguous).gather_eq (perm.filterMap _)]

/-- The field that comes last decides what stands under its key. -/
theorem get?_toHostTable_concat (fields : List (Value × Value)) (metatable : Option Lua.TableRef)
    (field : Value × Value) {keyKind cellKind : ItemKind} {key : String}
    (hkey : text? field.1 = some key) :
    (toHostTable ⟨fields ++ [field], metatable⟩ keyKind cellKind).get? key =
      some (toCell cellKind field.2) := by
  have last : taken? cellKind field = some (key, toCell cellKind field.2) := by
    rw [taken?, hkey]
    rfl
  rw [toHostTable_eq, List.filterMap_append, List.filterMap_cons_some last]
  exact HostTable.lookup_gather_concat _ _ _

/-- If all orders of the fields give one table, no key is read from fields that differ. -/
theorem unambiguous_of_perm {table : Table} {keyKind cellKind : ItemKind}
    (same : ∀ o : Table, o.fields.Perm table.fields →
      toHostTable o keyKind cellKind = toHostTable table keyKind cellKind) :
    Unambiguous cellKind table := by
  -- Each of the two fields is the one that is held when it comes last.
  have held (f : Value × Value) (hf : f ∈ table.fields) (key : String)
      (fkey : text? f.1 = some key) :
      (toHostTable table keyKind cellKind).get? key = some (toCell cellKind f.2) := by
    obtain ⟨before, behind, split⟩ := List.append_of_mem hf
    have perm : (before ++ behind ++ [f]).Perm table.fields := by
      rw [split, List.append_assoc]
      exact (List.perm_append_singleton f behind).append_left before
    rw [← same ⟨before ++ behind ++ [f], none⟩ perm, get?_toHostTable_concat _ _ _ fkey]
  intro f hf g hg key fkey gkey
  exact Option.some.inj ((held f hf key fkey).symm.trans (held g hg key gkey))

/-- A table whose string keys are UTF-8 has no two of them for one text. -/
theorem nodup_texts {table : Table} (distinct : (table.fields.map Prod.fst).Nodup)
    (utf8 : ∀ s ∈ stringKeys table, s.IsValidUTF8) :
    ((stringKeys table).map Text.decode).Nodup := by
  have keys : (stringKeys table).Nodup := by
    refine distinct.filterMap fun v w s hv hw => ?_
    cases v <;> cases w <;> cases hv <;> cases hw
    rfl
  refine List.Nodup.map_on (fun s hs t ht same => ?_) keys
  have written := congrArg Text.encode same
  rwa [Text.encode_decode (utf8 s hs), Text.encode_decode (utf8 t ht)] at written

private theorem unambiguous_of_nodup {table : Table}
    (distinct : ((stringKeys table).map Text.decode).Nodup) (kind : ItemKind) :
    Unambiguous kind table := by
  rw [← map_fst_filterMap_taken? table kind] at distinct
  exact unambiguous_iff.mpr (HostTable.agreeing_of_nodup distinct)

/-- A table of a script is taken over with one entry for every text that a string key reads as. So
string keys get lost just if two of them read as the same text, and the order of the fields matters
just if these hold values that are taken over differently. Neither happens when the string keys are
UTF-8. -/
theorem takes_string_keys (table : Table) (keyKind cellKind : ItemKind) :
    let t := toHostTable table keyKind cellKind
    let texts := (stringKeys table).map Text.decode
    (∀ key, (t.get? key).isSome ↔ key ∈ texts) ∧
      t.size = texts.dedup.length ∧
      (t.size = (stringKeys table).length ↔ texts.Nodup) ∧
      ((∀ o o' : Table, o.fields.Perm table.fields → o'.fields.Perm table.fields →
        toHostTable o keyKind cellKind = toHostTable o' keyKind cellKind) ↔
          Unambiguous cellKind table) ∧
      ((table.fields.map Prod.fst).Nodup → (∀ s ∈ stringKeys table, s.IsValidUTF8) →
        texts.Nodup ∧ Unambiguous cellKind table) := by
  intro t texts
  have entries : t.entries = gather (table.fields.filterMap (taken? cellKind)) :=
    congrArg HostTable.entries (toHostTable_eq table keyKind cellKind)
  have keys := map_fst_filterMap_taken? table cellKind
  have size : t.size = texts.dedup.length := by
    rw [HostTable.size, entries, HostTable.length_gather, keys]
  refine ⟨fun key => ?_, size, ?_, ⟨fun same => ?_, fun h o o' perm perm' => ?_⟩,
    fun distinct utf8 => ?_⟩
  · rw [Option.isSome_iff_ne_none, HostTable.get?, entries, Ne, lookup_eq_none_iff_notMem,
      Decidable.not_not, HostTable.mem_keys_gather, keys]
  · have length : texts.length = (stringKeys table).length := List.length_map _
    rw [size, ← length, ← List.dedup_eq_self]
    exact ⟨(List.dedup_sublist texts).eq_of_length, congrArg List.length⟩
  · exact unambiguous_of_perm fun o perm => same o table perm (List.Perm.refl _)
  · rw [← toHostTable_perm h perm.symm, ← toHostTable_perm h perm'.symm]
  · have texts_distinct := nodup_texts distinct utf8
    exact ⟨texts_distinct, unambiguous_of_nodup texts_distinct cellKind⟩

/-- A table whose string keys are texts, and a field under a number. -/
def accented : Table :=
  ⟨[(.text "é", .text "1"), (.text "e", .int 2), (.int 1, .text "x")], none⟩

/-- The case of keys that are texts, with a field under a number between them. -/
theorem takes_string_keys_accented :
    (toHostTable accented .text .text).size = (stringKeys accented).length ∧
      ∀ o : Table, o.fields.Perm accented.fields →
        toHostTable o .text .text = toHostTable accented .text .text := by
  obtain ⟨-, -, all, order, texts⟩ := takes_string_keys accented .text .text
  have utf8 := texts (by decide) (by decide +kernel)
  exact ⟨all.mpr utf8.1, fun o perm => order.mpr utf8.2 o accented perm (List.Perm.refl _)⟩

/-- Two fields whose keys are no texts. -/
def garbled : List (Value × Value) :=
  [(.str ⟨#[0xFF]⟩, .text "a"), (.str ⟨#[0xFE]⟩, .text "b")]

/-- The keys read as the same text, so one of the fields is lost, and which one depends on the
order. -/
theorem takes_garbled_keys :
    (stringKeys ⟨garbled, none⟩).length = 2 ∧
      toHostTable ⟨garbled, none⟩ .text .text = ⟨.text, .text, [("\uFFFD", .text "b")]⟩ ∧
      toHostTable ⟨garbled.reverse, none⟩ .text .text =
        ⟨.text, .text, [("\uFFFD", .text "a")]⟩ := by
  decide +kernel

/-! ### Host tables that come back -/

/-- A cell of a kind, or a null. -/
inductive OfKind : ItemKind → Cell → Prop where
  | null (kind : ItemKind) : OfKind kind .null
  | text (s : String) : OfKind .text (.text s)
  | handle (h : Handle) : OfKind .handle (.handle h)

instance (kind : ItemKind) (cell : Cell) : Decidable (OfKind kind cell) :=
  match kind, cell with
  | _, .null => isTrue (.null _)
  | .text, .text s => isTrue (.text s)
  | .handle, .handle h => isTrue (.handle h)
  | .text, .handle _ | .handle, .text _ => isFalse nofun

/-- All cells are of the kind that the table names, or null. -/
def Uniform (t : HostTable) : Prop := ∀ e ∈ t.entries, OfKind t.cellKind e.2

instance (t : HostTable) : Decidable (Uniform t) :=
  inferInstanceAs (Decidable (∀ e ∈ t.entries, OfKind t.cellKind e.2))

/-- A table without its nulls. -/
def withoutNulls (t : HostTable) : HostTable :=
  { t with entries := t.entries.filter (·.2 ≠ .null) }

/-- Every cell is read from the value that it became, and a null became none. -/
theorem taken?_ofCell {kind : ItemKind} {key : String} {cell : Cell} (ofKind : OfKind kind cell) :
    ((ofCell cell).map (Value.text key, ·)).bind (taken? kind) =
      Option.guard (fun e => e.2 ≠ .null) (key, cell) := by
  have hkey : text? (.text key) = some key := congrArg some (Text.decode_encode key)
  cases ofKind with
  | null => rfl
  | text s =>
    have hs : text? (.text s) = some s := congrArg some (Text.decode_encode s)
    simp [ofCell, taken?, hkey, toCell, hs, Option.guard]
  | handle h =>
    have hh : text? (.text h.text) = some h.text := congrArg some (Text.decode_encode h.text)
    simp [ofCell, taken?, hkey, toCell, hh, Handle.parse?_text, Option.guard]

private theorem filterMap_taken?_ofHostTable {t : HostTable} (uniform : Uniform t) :
    (ofHostTable t).fields.filterMap (taken? t.cellKind) = (withoutNulls t).entries := by
  rw [ofHostTable, List.filterMap_filterMap, withoutNulls, ← List.filterMap_eq_filter]
  exact List.filterMap_congr fun (_, _) there => taken?_ofCell (uniform _ there)

private theorem text_injective {s t : String} (h : Value.text s = .text t) : s = t :=
  Text.encode_injective (Value.str.inj h)

/-- Set the field of an entry; a null has none. -/
def setEntry (table : Table) (entry : String × Cell) : Table :=
  (ofCell entry.2).elim table (table.set (.text entry.1))

/-- The table that a script gets is an empty one in which the entries were set one by one. -/
theorem foldl_setEntry {entries : List (String × Cell)} (distinct : (entries.map Prod.fst).Nodup)
    (keyKind cellKind : ItemKind) :
    entries.foldl setEntry .empty = ofHostTable ⟨keyKind, cellKind, entries⟩ := by
  induction entries using List.reverseRecOn with
  | nil => rfl
  | append_singleton entries last ih =>
    obtain ⟨key, cell⟩ := last
    rw [List.map_append, List.nodup_append] at distinct
    obtain ⟨before, -, apart⟩ := distinct
    have unset : ((ofHostTable ⟨keyKind, cellKind, entries⟩).fields.lookup (.text key)).isSome =
        false := by
      rw [Option.isSome_eq_false_iff, Option.isNone_iff_eq_none, lookup_eq_none_iff_notMem]
      intro there
      obtain ⟨field, mem, named⟩ := List.mem_map.mp there
      obtain ⟨e, he, made⟩ := List.mem_filterMap.mp mem
      obtain ⟨v, -, rfl⟩ := Option.map_eq_some_iff.mp made
      exact apart e.1 (List.mem_map_of_mem he) key List.mem_cons_self (text_injective named)
    have set (v : Value) (something : v ≠ .nil) :
        (ofHostTable ⟨keyKind, cellKind, entries⟩).set (.text key) v =
          ⟨(ofHostTable ⟨keyKind, cellKind, entries⟩).fields ++ [(.text key, v)], none⟩ := by
      rw [Table.set, if_neg something, unset, if_neg Bool.false_ne_true]
      rfl
    rw [List.foldl_append, ih before, List.foldl_cons, List.foldl_nil, setEntry]
    cases cell with
    | null => simp [ofHostTable, ofCell]
    | text s => exact (set (.text s) nofun).trans (by simp [ofHostTable, ofCell])
    | handle h => exact (set (.text h.text) nofun).trans (by simp [ofHostTable, ofCell])

/-- Whatever the order in which the entries are set, the script gets the same fields. -/
theorem perm_foldl_setEntry {t : HostTable} (ordered : Ordered t.entries)
    {order : List (String × Cell)} (perm : order.Perm t.entries) :
    (order.foldl setEntry .empty).fields.Perm (ofHostTable t).fields := by
  have distinct := (perm.map Prod.fst).nodup_iff.mpr ordered.nodup_keys
  rw [foldl_setEntry distinct t.keyKind t.cellKind]
  exact perm.filterMap _

/-- A host table that went to a script comes back without its nulls, in whatever order the script
holds its fields. -/
theorem toHostTable_ofHostTable {t : HostTable} (ordered : Ordered t.entries)
    (uniform : Uniform t) {table : Table} (perm : table.fields.Perm (ofHostTable t).fields) :
    toHostTable table t.keyKind t.cellKind = withoutNulls t := by
  have held : Ordered (withoutNulls t).entries := List.Pairwise.filter _ ordered
  have pairs := perm.filterMap (taken? t.cellKind)
  rw [filterMap_taken?_ofHostTable uniform] at pairs
  rw [toHostTable_eq, ← held.agreeing.gather_eq pairs.symm, held.gather_eq]
  rfl

end LuaHost.Exchange
