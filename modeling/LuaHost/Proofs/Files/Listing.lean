import LuaHost.Proofs.FileName
import LuaHost.ScriptDirs
import Mathlib.Data.List.Nodup
import Mathlib.Data.List.Sort
import Mathlib.Data.List.TakeWhile
import Mathlib.Data.String.Basic
import Mathlib.Tactic.SplitIfs

/-!
# The scripts that a directory lists

A tree lists the names below a location in no particular order. Those of scripts are sorted, which
puts them in the order of their bytes as well, and the ones that lead to no file are left out. What
is left is exactly the scripts to be loaded at startup. A name that is no text is not among them,
whatever it begins and ends with.
-/

namespace LuaHost

/-! ### The order of texts -/

namespace Text

/-- A character before another one is written in bytes before those of the other one, whatever
follows. -/
theorem utf8EncodeChar_append_lt {c d : Char} (h : c < d) (r r' : List UInt8) :
    String.utf8EncodeChar c ++ r < String.utf8EncodeChar d ++ r' := by
  have less : c.val.toNat < d.val.toNat := h
  have valid : d.val.toNat < 0x110000 := by
    rcases d.valid with low | high
    · exact Nat.lt_trans low (by decide)
    · exact high.2
  have byte {n : Nat} (h : n < 0x100) : (UInt8.ofNat n).toNat = n := UInt8.toNat_ofNat_of_lt' h
  unfold String.utf8EncodeChar
  dsimp only
  generalize c.val.toNat = m at less ⊢
  generalize d.val.toNat = n at less valid ⊢
  -- The first group of six bits that differs decides, and the groups before it are equal.
  have groups (k : Nat) : k / 4096 = k / 64 / 64 ∧ k / 262144 = k / 64 / 64 / 64 := by omega
  rw [(groups m).1, (groups m).2, (groups n).1, (groups n).2]
  split_ifs <;>
    simp only [List.cons_append, List.nil_append, List.cons_lt_cons_iff, UInt8.lt_iff_toNat_lt,
      ← UInt8.toNat_inj] <;>
    (repeat rw [byte (by omega)]) <;> omega

private theorem written_lt_written {cs ds : List Char} (h : cs < ds) : written cs < written ds := by
  induction cs generalizing ds with
  | nil =>
    cases ds with
    | nil => exact absurd h (List.not_lt_nil _)
    | cons d ds =>
      obtain ⟨b, bs, first, -⟩ := readChar_written d ds
      rw [first]
      exact List.nil_lt_cons _ _
  | cons c cs ih =>
    cases ds with
    | nil => exact absurd h (List.not_lt_nil _)
    | cons d ds =>
      rcases List.cons_lt_cons_iff.mp h with less | ⟨rfl, less⟩
      · exact utf8EncodeChar_append_lt less _ _
      · exact List.append_left_lt (ih less)

/-- Texts are in the order of their bytes. -/
theorem encode_le_encode {s t : String} (h : s ≤ t) :
    (encode s).data.toList ≤ (encode t).data.toList := by
  rw [encode_toList, encode_toList]
  rcases lt_or_eq_of_le h with less | rfl
  · exact List.le_of_lt (written_lt_written less)
  · exact List.le_refl _

end Text

namespace FileTree

private theorem insertName_eq_orderedInsert (s : String) (names : List String) :
    insertName s names = names.orderedInsert (· ≤ ·) s := by
  induction names with
  | nil => rfl
  | cons u us ih => rw [insertName, List.orderedInsert_cons, ih]

private theorem sortNames_eq_insertionSort (names : List String) :
    sortNames names = names.insertionSort (· ≤ ·) := by
  induction names with
  | nil => rfl
  | cons s names ih =>
    rw [List.insertionSort_cons, ← ih, ← insertName_eq_orderedInsert]
    rfl

private theorem perm_sortNames (names : List String) : (sortNames names).Perm names := by
  rw [sortNames_eq_insertionSort]
  exact List.perm_insertionSort _ names

private theorem pairwise_sortNames (names : List String) : (sortNames names).Pairwise (· ≤ ·) := by
  rw [sortNames_eq_insertionSort]
  exact List.pairwise_insertionSort _ names

/-! ### The names below a location -/

/-- No location has two entries. -/
def Distinct (t : FileTree) : Prop := (t.entries.map Prod.fst).Nodup

/-- The name that an entry has below a location. -/
def nameBelow? (dir loc : Location) : Option String :=
  if loc.dropLast = dir then loc.getLast? else none

private theorem nameBelow?_eq_some_iff {dir loc : Location} {name : String} :
    nameBelow? dir loc = some name ↔ loc = dir ++ [name] := by
  unfold nameBelow?
  constructor
  · intro h
    split at h
    · next inside =>
      have ending := List.dropLast_append_getLast? name h
      rw [← ending, inside]
    · cases h
  · rintro rfl
    simp

private theorem children_eq (t : FileTree) (dir : Location) :
    t.children dir = (t.entries.map Prod.fst).filterMap (nameBelow? dir) := by
  rw [List.filterMap_map]
  rfl

/-- The names below a location are those that have an entry there. -/
theorem mem_children_iff {t : FileTree} {dir : Location} {name : String} :
    name ∈ t.children dir ↔ ∃ e, t.get? (dir ++ [name]) = some e := by
  have stored : t.get? (dir ++ [name]) = t.entries.lookup (dir ++ [name]) := by simp [get?]
  rw [children_eq, List.mem_filterMap, stored, ← Option.isSome_iff_exists,
    List.lookup_isSome_iff]
  simp only [nameBelow?_eq_some_iff]
  constructor
  · rintro ⟨loc, mem, rfl⟩
    obtain ⟨entry, there, at_loc⟩ := List.mem_map.mp mem
    exact ⟨entry, there, by simp [at_loc]⟩
  · rintro ⟨entry, there, same⟩
    exact ⟨_, List.mem_map_of_mem there, (eq_of_beq same).symm⟩

private theorem Distinct.nodup_children {t : FileTree} (h : t.Distinct) (dir : Location) :
    (t.children dir).Nodup := by
  rw [children_eq]
  refine h.filterMap fun loc loc' name there there' => ?_
  rw [Option.mem_def, nameBelow?_eq_some_iff] at there there'
  rw [there, there']

private theorem isFile_iff {t : FileTree} {path : String} :
    t.isFile path = true ↔
      ∃ loc content, t.resolve path true = .ok (.entry loc (.file content)) := by
  unfold isFile target?
  constructor
  · intro h
    split at h
    · next content found =>
      split at found
      · next loc e leads =>
        cases found
        exact ⟨loc, content, leads⟩
      · cases found
    · cases h
  · rintro ⟨loc, content, leads⟩
    simp [leads]

private theorem mem_list_iff {t : FileTree} {path name : String} :
    (∃ names, t.list path = .ok names ∧ name ∈ names) ↔
      ∃ dir e, t.resolve path true = .ok (.entry dir .directory) ∧
        t.get? (dir ++ [name]) = some e := by
  unfold list
  cases leads : t.resolve path true with
  | error error => simp [bind, Except.bind]
  | ok place =>
    cases place with
    | vacant parent free => simp [bind, Except.bind]
    | entry dir e =>
      cases e with
      | directory => simp [bind, Except.bind, mem_children_iff]
      | file content => simp [bind, Except.bind]
      | link target => simp [bind, Except.bind]

private theorem Distinct.nodup_list {t : FileTree} (h : t.Distinct) {path : String}
    {names : List String}
    (listed : t.list path = .ok names) : names.Nodup := by
  unfold list at listed
  cases leads : t.resolve path true with
  | error error => simp [leads, bind, Except.bind] at listed
  | ok place =>
    rw [leads] at listed
    simp only [bind, Except.bind] at listed
    split at listed
    · cases listed
      exact h.nodup_children _
    · cases listed
    · cases listed

end FileTree

/-! ### Names of scripts -/

namespace Path

/-- An extension holds no dot, and stands behind one that is not the first character. -/
theorem extension?_eq_some_iff {name extension : String} :
    extension? name = some extension ↔
      '.' ∉ extension.toList ∧ ∃ stem ≠ [], name.toList = stem ++ '.' :: extension.toList := by
  unfold extension?
  dsimp only
  constructor
  · intro h
    have split := List.takeWhile_append_dropWhile (p := (· != '.')) (l := name.toList.reverse)
    have dot := List.head?_dropWhile_not (· != '.') name.toList.reverse
    have plain : '.' ∉ name.toList.reverse.takeWhile (· != '.') := fun mem => by
      simpa using List.mem_takeWhile_imp mem
    generalize name.toList.reverse.takeWhile (· != '.') = after at h split plain
    generalize name.toList.reverse.dropWhile (· != '.') = front at h split dot
    match front with
    | [] => cases h
    | [_] => cases h
    | c :: b :: bs =>
      obtain rfl : c = '.' := by simpa using dot
      obtain rfl := Option.some.inj h
      rw [String.toList_ofList, List.mem_reverse]
      refine ⟨plain, (b :: bs).reverse, by simp, ?_⟩
      rw [← List.reverse_reverse name.toList, ← split]
      simp
  · rintro ⟨plain, stem, some_stem, parts⟩
    have clean : ∀ c ∈ extension.toList.reverse, (c != '.') = true := by
      intro c hc
      have : c ≠ '.' := by
        rintro rfl
        exact plain (List.mem_reverse.mp hc)
      simpa using this
    obtain ⟨b, bs, front⟩ := List.exists_cons_of_ne_nil (List.reverse_ne_nil_iff.mpr some_stem)
    have reversed : name.toList.reverse = extension.toList.reverse ++ '.' :: b :: bs := by
      rw [parts, ← front]
      simp
    rw [reversed, List.takeWhile_append_of_pos clean, List.dropWhile_append_of_pos clean]
    simp

end Path

namespace ScriptDirs

variable (d : ScriptDirs) (t : FileTree)

/-- Scripts are named by a text with something in front of the extension, and not hidden. -/
theorem isScriptName_iff {name : String} :
    isScriptName name = true ↔
      FileName.isText name = true ∧ name.toList.head? ≠ some '.' ∧
        ∃ stem, name = stem ++ ".lua" := by
  have ending : ".lua".toList = '.' :: "lua".toList := rfl
  rw [isScriptName, Bool.and_eq_true, Bool.and_eq_true, decide_eq_true_iff, decide_eq_true_iff,
    Path.extension?_eq_some_iff, and_assoc]
  refine and_congr_right fun _ => and_congr_right fun visible => ?_
  constructor
  · rintro ⟨-, stem, -, parts⟩
    refine ⟨String.ofList stem, String.toList_inj.mp ?_⟩
    rw [String.toList_append, String.toList_ofList, ending, parts]
  · rintro ⟨stem, rfl⟩
    refine ⟨by decide, stem.toList, ?_, by rw [String.toList_append, ending]⟩
    intro empty
    apply visible
    rw [String.toList_append, empty]
    rfl

/-! ### Scripts to be loaded at startup -/

/-- An entry of the autoload directory looks like a script: from the directory on it leads to a
regular file, the bytes of its name do not begin with a dot, and they end in the extension of
scripts. -/
structure Eligible (name : String) : Prop where
  entry : ∃ dir, t.resolve d.autoload true = .ok (.entry dir .directory) ∧
    ∃ loc content, t.walk true FileTree.maxLinks dir [name] = .ok (.entry loc (.file content))
  visible : (FileName.bytes name).head? ≠ some 46
  extension : ∃ stem, FileName.bytes name = stem ++ (Text.encode ".lua").data.toList

/-- A name is that of a script to be loaded at startup: it has an entry in the autoload directory,
its path leads to a regular file, and it is a text that is not hidden and has the extension of
scripts. -/
structure AtStartup (name : String) : Prop where
  entry : ∃ dir e, t.resolve d.autoload true = .ok (.entry dir .directory) ∧
    t.get? (dir ++ [name]) = some e
  file : ∃ loc content,
    t.resolve (Path.join d.autoload name) true = .ok (.entry loc (.file content))
  text : FileName.isText name = true
  visible : name.toList.head? ≠ some '.'
  extension : ∃ stem, name = stem ++ ".lua"

/-- The names of the scripts to be loaded at startup. -/
def startupNames : List String :=
  let names := (t.list d.autoload).toOption.getD []
  (FileTree.sortNames (names.filter isScriptName)).filter fun name =>
    t.isFile (Path.join d.autoload name)

/-- The scripts of the autoload directory are those to be loaded at startup, if it can be listed. -/
theorem autoloadScripts_eq :
    d.autoloadScripts t =
      (t.list d.autoload).map fun _ => (d.startupNames t).map (Path.join d.autoload) := by
  unfold autoloadScripts startupNames
  cases t.list d.autoload with
  | error error => rfl
  | ok names =>
    show Except.ok _ = Except.ok _
    rw [List.filter_map]
    rfl

/-- What is listed for the startup is what is to be loaded at startup. -/
theorem mem_startupNames_iff {name : String} :
    name ∈ d.startupNames t ↔ d.AtStartup t name := by
  have listed : name ∈ (t.list d.autoload).toOption.getD [] ↔
      ∃ names, t.list d.autoload = .ok names ∧ name ∈ names := by
    cases t.list d.autoload <;> simp [Except.toOption]
  rw [startupNames, List.mem_filter, (FileTree.perm_sortNames _).mem_iff, List.mem_filter, listed,
    FileTree.mem_list_iff, FileTree.isFile_iff, isScriptName_iff]
  exact ⟨fun ⟨⟨entry, text, visible, extension⟩, file⟩ => ⟨entry, file, text, visible, extension⟩,
    fun ⟨entry, file, text, visible, extension⟩ => ⟨⟨entry, text, visible, extension⟩, file⟩⟩

/-- The names are listed in the order of their bytes. -/
theorem pairwise_startupNames : (d.startupNames t).Pairwise fun a b =>
    (Text.encode a).data.toList ≤ (Text.encode b).data.toList := by
  have sorted := FileTree.pairwise_sortNames
    (((t.list d.autoload).toOption.getD []).filter isScriptName)
  exact (sorted.filter _).imp Text.encode_le_encode

/-- No name is listed twice. -/
theorem nodup_startupNames (h : t.Distinct) : (d.startupNames t).Nodup := by
  have listed : ((t.list d.autoload).toOption.getD []).Nodup := by
    cases names : t.list d.autoload with
    | error error => exact .nil
    | ok names' => exact h.nodup_list names
  exact ((FileTree.perm_sortNames _).nodup_iff.mpr (listed.filter _)).filter _

end ScriptDirs

end LuaHost
