import LuaHost.FileName
import LuaHost.Proofs.Encoding

/-!
# Names that are no texts

A name keeps every byte it has, whether it is a text or not, and it is a text exactly if its bytes
are UTF-8.
-/

namespace LuaHost.FileName

/-- A name that is a text stands as that text. -/
theorem ofBytes_encode (s : String) : ofBytes (Text.encode s) = s := by
  rw [ofBytes, Text.fromUTF8?_encode]

/-- A text without a NUL among its bytes is told apart from names that are no texts. -/
private theorem isText_of_notMem {s : String} (h : 0 ∉ (Text.encode s).data.toList) :
    isText s = true := by
  rw [Text.encode_toList] at h
  refine decide_eq_true fun begins => ?_
  obtain ⟨rest, chars⟩ := List.head?_eq_some_iff.mp begins
  rw [chars] at h
  exact h (List.mem_append_left _ (by decide))

/-- The bytes of a text are those it is written in. -/
theorem bytes_of_isText {name : String} (h : isText name = true) :
    bytes name = (Text.encode name).data.toList := by
  have begins : name.toList.head? ≠ some '\x00' := of_decide_eq_true h
  unfold bytes
  split
  · next raw chars =>
    rw [chars] at begins
    exact absurd rfl begins
  · rfl

/-- No byte of a name is lost. -/
theorem bytes_ofBytes {b : ByteArray} (h : 0 ∉ b.data.toList) :
    bytes (ofBytes b) = b.data.toList := by
  unfold ofBytes
  cases read : String.fromUTF8? b with
  | some s =>
    obtain rfl := Text.eq_encode_of_fromUTF8? read
    exact bytes_of_isText (isText_of_notMem h)
  | none =>
    have same (byte : UInt8) : UInt8.ofNat (Char.ofNat byte.toNat).toNat = byte := by
      have valid : byte.toNat.isValidChar := .inl (Nat.lt_trans byte.toNat_lt (by decide))
      have whole : (Char.ofNat byte.toNat).toNat = byte.toNat := by
        rw [Char.ofNat, dif_pos valid]
        rfl
      rw [whole, UInt8.ofNat_toNat]
    simp only [bytes, String.toList_ofList, List.map_map]
    exact (List.map_congr_left fun byte _ => same byte).trans (List.map_id _)

/-- A name is a text exactly if its bytes are UTF-8. -/
theorem isText_ofBytes_iff {b : ByteArray} (h : 0 ∉ b.data.toList) :
    isText (ofBytes b) = true ↔ b.IsValidUTF8 := by
  unfold ofBytes
  cases read : String.fromUTF8? b with
  | some s =>
    obtain rfl := Text.eq_encode_of_fromUTF8? read
    exact iff_of_true (isText_of_notMem h) s.isValidUTF8
  | none =>
    refine iff_of_false (by simp [isText]) fun utf8 => ?_
    simp [String.fromUTF8?, utf8] at read

end LuaHost.FileName
