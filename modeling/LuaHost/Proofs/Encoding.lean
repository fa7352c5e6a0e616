import LuaHost.Text.Encoding

/-!
# Texts of bytes that are cut

Bytes are read from left to right, each time one character out of a byte and those that go on with
it. So bytes that are cut in two read as the two texts one after the other, unless the first part
ends inside a character and the second one goes on with it. In that case characters get lost.
-/

namespace LuaHost.Text

/-! ### The bytes behind the first one -/

/-- A byte that does not begin a character but can go on with one. -/
def IsTail (b : UInt8) : Prop := 0x80 ≤ b.toNat ∧ b.toNat ≤ 0xBF

/-- Bounds on the next byte that only a byte within a character can meet. -/
def Bounds (low high : Nat) : Prop := 0x80 ≤ low ∧ high ≤ 0xBF

private theorem Bounds.tail : Bounds 0x80 0xBF := ⟨Nat.le_refl _, Nat.le_refl _⟩

private theorem Bounds.isTail {low high : Nat} (bounds : Bounds low high) {b : UInt8}
    (within : low ≤ b.toNat ∧ b.toNat ≤ high) : IsTail b :=
  ⟨Nat.le_trans bounds.1 within.1, Nat.le_trans within.2 bounds.2⟩

/-- How the bytes of a character behind its first ones are read, of which `left` are due: those that
are read go on with the character. -/
inductive TailRead (width left : Nat) (bs : List UInt8) : Reading → Prop where
  | char (c : Char) (enough : left ≤ bs.length) (tails : ∀ b ∈ bs.take left, IsTail b) :
    TailRead width left bs (.char c (width + left))
  | invalid (n : Nat) (there : n < bs.length) (tails : ∀ b ∈ bs.take n, IsTail b) :
    TailRead width left bs (.invalid (width + n))
  | incomplete (tails : ∀ b ∈ bs, IsTail b) : TailRead width left bs .incomplete

private theorem tailRead (left : Nat) {low high : Nat} (bounds : Bounds low high) (acc width : Nat)
    (bs : List UInt8) : TailRead width left bs (readTail low high acc width left bs) := by
  induction left generalizing low high acc width bs with
  | zero => exact .char _ (Nat.zero_le _) (by simp)
  | succ left ih =>
    cases bs with
    | nil => exact .incomplete (List.forall_mem_nil _)
    | cons b bs =>
      rw [readTail]
      split
      · next accepted =>
        have first := bounds.isTail accepted
        have rest := ih .tail (acc * 64 + (b.toNat - 0x80)) (width + 1) bs
        generalize readTail _ _ _ _ left bs = r at rest ⊢
        cases rest with
        | char c enough tails =>
          rw [Nat.add_assoc, Nat.add_comm 1]
          exact .char c (Nat.succ_le_succ enough) (List.forall_mem_cons.mpr ⟨first, tails⟩)
        | invalid n there tails =>
          rw [Nat.add_assoc, Nat.add_comm 1]
          exact .invalid (n + 1) (Nat.succ_lt_succ there)
            (List.forall_mem_cons.mpr ⟨first, tails⟩)
        | incomplete tails => exact .incomplete (List.forall_mem_cons.mpr ⟨first, tails⟩)
      · exact .invalid 0 (Nat.succ_pos _) (by simp)

/-- What was read whole is read in the same way when more bytes follow. -/
theorem readTail_append {left low high acc width : Nat} {bs : List UInt8}
    (whole : readTail low high acc width left bs ≠ .incomplete) (more : List UInt8) :
    readTail low high acc width left (bs ++ more) = readTail low high acc width left bs := by
  induction left generalizing low high acc width bs with
  | zero => simp only [readTail]
  | succ left ih =>
    cases bs with
    | nil => exact absurd rfl whole
    | cons b bs =>
      simp only [List.cons_append, readTail] at whole ⊢
      split
      · next accepted =>
        rw [if_pos accepted] at whole
        exact ih whole
      · rfl

/-- Where the bytes end inside a character, reading goes on with those that follow. -/
theorem resume_readTail {left low high acc width : Nat} {bs : List UInt8}
    (bounds : Bounds low high) (ends : readTail low high acc width left bs = .incomplete) :
    ∃ low' high' acc' left', Bounds low' high' ∧ ∀ more,
      readTail low high acc width left (bs ++ more) =
        readTail low' high' acc' (width + bs.length) (left' + 1) more := by
  induction left generalizing low high acc width bs with
  | zero => cases ends
  | succ left ih =>
    cases bs with
    | nil => exact ⟨low, high, acc, left, bounds, fun _ => rfl⟩
    | cons b bs =>
      simp only [readTail] at ends
      split at ends
      · next accepted =>
        obtain ⟨low', high', acc', left', bounds', resumed⟩ := ih .tail ends
        refine ⟨low', high', acc', left', bounds', fun more => ?_⟩
        rw [List.cons_append, readTail, if_pos accepted, resumed, List.length_cons,
          Nat.add_assoc, Nat.add_comm 1]
      · cases ends

/-! ### One character -/

/-- The character that is shown for what stands at the start of bytes. -/
def Reading.shown : Reading → Char
  | .char c _ => c
  | .invalid _ | .incomplete => '\uFFFD'

/-- How many bytes behind the first one are read, out of those that are there. -/
def Reading.behind (there : Nat) : Reading → Nat
  | .char _ width | .invalid width => width - 1
  | .incomplete => there

/-- What a first byte says about the rest of its character: there is none, or some bytes within
bounds are due. They make the number of the character large. -/
inductive Lead (b : UInt8) : Prop where
  | single (r : Reading) (whole : r ≠ .incomplete) (alone : ∀ there, r.behind there = 0)
    (read : ∀ bs, readChar b bs = r)
  | several (low high acc left : Nat) (bounds : Bounds low high)
    (read : ∀ bs, readChar b bs = readTail low high acc 1 (left + 1) bs)

/-- The number that the bits of a first byte make. -/
def leadBits (n width : Nat) : Nat :=
  if width = 2 then n - 0xC0 else if width = 3 then n - 0xE0 else n - 0xF0

private theorem of_leadRange {n low high width : Nat} (h : leadRange n = some (low, high, width)) :
    Bounds low high ∧ 2 ≤ width := by
  have found {l r w : Nat} (bounds : Bounds l r) (wide : 2 ≤ w)
      (h : some (l, r, w) = some (low, high, width)) : Bounds low high ∧ 2 ≤ width := by
    cases h
    exact ⟨bounds, wide⟩
  unfold leadRange at h
  repeat' split at h
  all_goals first
    | exact found ⟨by decide, by decide⟩ (by decide) h
    | cases h

private theorem readChar_of_leadRange {b : UInt8} {n low high width : Nat} (same : b.toNat = n)
    (range : leadRange n = some (low, high, width)) (big : 0x80 ≤ n) (bs : List UInt8) :
    readChar b bs = readTail low high (leadBits n width) 1 (width - 1) bs := by
  rw [readChar, same, if_neg (Nat.not_lt.mpr big), range]
  rfl

private theorem lead (b : UInt8) : Lead b := by
  by_cases ascii : b.toNat < 0x80
  · refine .single (.char (Char.ofNat b.toNat) 1) nofun (fun _ => rfl) fun bs => ?_
    rw [readChar, if_pos ascii]
  · cases range : leadRange b.toNat with
    | none =>
      refine .single (.invalid 1) nofun (fun _ => rfl) fun bs => ?_
      rw [readChar, if_neg ascii, range]
    | some bounds =>
      obtain ⟨low, high, width⟩ := bounds
      obtain ⟨within, wide⟩ := of_leadRange range
      obtain ⟨left, rfl⟩ := Nat.exists_eq_add_of_le' wide
      exact .several low high (leadBits b.toNat (left + 2)) left within
        (readChar_of_leadRange rfl range (Nat.not_lt.mp ascii))

/-! ### Characters that were written -/

private theorem readTail_cons {low high acc width left n : Nat} (small : n < 0x100)
    (accepted : low ≤ n ∧ n ≤ high) (bs : List UInt8) :
    readTail low high acc width (left + 1) (UInt8.ofNat n :: bs) =
      readTail 0x80 0xBF (acc * 64 + (n - 0x80)) (width + 1) left bs := by
  have same : (UInt8.ofNat n).toNat = n := UInt8.toNat_ofNat_of_lt' small
  rw [readTail, same, if_pos accepted]

/-- The second byte of a character in three is bounded more narrowly behind the first byte that
short characters would have, and behind the one of surrogates. -/
theorem leadRange_three {n : Nat} (wide : 0x800 ≤ n ∧ n < 0x10000)
    (valid : n < 0xD800 ∨ 0xDFFF < n) : ∃ low high,
      leadRange (n / 4096 % 16 + 224) = some (low, high, 3) ∧
        low ≤ n / 64 % 64 + 128 ∧ n / 64 % 64 + 128 ≤ high := by
  by_cases first : n / 4096 % 16 + 224 = 0xE0
  · exact ⟨0xA0, 0xBF, by rw [first]; rfl, by omega⟩
  by_cases surrogates : n / 4096 % 16 + 224 = 0xED
  · exact ⟨0x80, 0x9F, by rw [surrogates]; rfl, by omega⟩
  · refine ⟨0x80, 0xBF, ?_, by omega⟩
    rw [leadRange, if_neg (by omega), if_neg first, if_neg surrogates, if_pos (by omega)]

private theorem leadRange_four {n : Nat} (wide : 0x10000 ≤ n) (valid : n < 0x110000) : ∃ low high,
    leadRange (n / 262144 % 8 + 240) = some (low, high, 4) ∧
      low ≤ n / 4096 % 64 + 128 ∧ n / 4096 % 64 + 128 ≤ high := by
  by_cases first : n / 262144 % 8 + 240 = 0xF0
  · exact ⟨0x90, 0xBF, by rw [first]; rfl, by omega⟩
  by_cases last : n / 262144 % 8 + 240 = 0xF4
  · exact ⟨0x80, 0x8F, by rw [last]; rfl, by omega⟩
  · refine ⟨0x80, 0xBF, ?_, by omega⟩
    rw [leadRange, if_neg (by omega), if_neg (by omega), if_neg (by omega), if_neg (by omega),
      if_neg first, if_pos (by omega)]

/-- A character reads back from its bytes, whatever follows them. -/
theorem readChar_encoded (c : Char) : ∃ b bs, String.utf8EncodeChar c = b :: bs ∧
    ∀ more, readChar b (bs ++ more) = .char c (bs.length + 1) := by
  have valid : c.toNat < 0xD800 ∨ 0xDFFF < c.toNat ∧ c.toNat < 0x110000 := c.valid
  have known {n : Nat} (h : n = c.toNat) (width : Nat) :
      Reading.char (Char.ofNat n) width = .char c width := by rw [h, Char.ofNat_toNat]
  have byte {n : Nat} (h : n < 0x100) : (UInt8.ofNat n).toNat = n := UInt8.toNat_ofNat_of_lt' h
  have number : c.val.toNat = c.toNat := rfl
  -- One case for each width, as the encoder branches; the first byte tells the decoder which.
  unfold String.utf8EncodeChar
  simp only [number]
  generalize c.toNat = n at valid known ⊢
  split
  · refine ⟨_, _, rfl, fun more => ?_⟩
    rw [readChar, byte (by omega), if_pos (by omega)]
    exact known rfl 1
  split
  · refine ⟨_, _, rfl, fun more => ?_⟩
    have range : leadRange (n / 64 % 32 + 192) = some (0x80, 0xBF, 2) := by
      rw [leadRange, if_pos (by omega)]
    rw [readChar_of_leadRange (byte (by omega)) range (by omega), List.cons_append,
      readTail_cons (by omega) (by omega)]
    exact known (by simp [leadBits]; omega) 2
  split
  · refine ⟨_, _, rfl, fun more => ?_⟩
    obtain ⟨low, high, range, within⟩ := leadRange_three (n := n) (by omega) (by omega)
    rw [readChar_of_leadRange (byte (by omega)) range (by omega), List.cons_append,
      readTail_cons (by omega) within, List.cons_append, readTail_cons (by omega) (by omega)]
    exact known (by simp [leadBits]; omega) 3
  · refine ⟨_, _, rfl, fun more => ?_⟩
    obtain ⟨low, high, range, within⟩ := leadRange_four (n := n) (by omega) (by omega)
    rw [readChar_of_leadRange (byte (by omega)) range (by omega), List.cons_append,
      readTail_cons (by omega) within, List.cons_append, readTail_cons (by omega) (by omega),
      List.cons_append, readTail_cons (by omega) (by omega)]
    exact known (by simp [leadBits]; omega) 4

/-! ### Whole texts -/

/-- The characters that bytes are read as. -/
def lossy (bs : List UInt8) : List Char := readLossy bs.length bs

private theorem readLossy_nil (fuel : Nat) : readLossy fuel [] = [] := by
  cases fuel <;> rfl

private theorem readLossy_cons (fuel : Nat) (b : UInt8) (bs : List UInt8) :
    readLossy (fuel + 1) (b :: bs) =
      (readChar b bs).shown :: readLossy fuel (bs.drop ((readChar b bs).behind bs.length)) := by
  rw [readLossy]
  cases readChar b bs with
  | char c width => rfl
  | invalid width => rfl
  | incomplete => simp [Reading.shown, Reading.behind, readLossy_nil]

/-- Reading more characters than there are bytes changes nothing. -/
theorem readLossy_congr {n m : Nat} {bs : List UInt8} (hn : bs.length ≤ n) (hm : bs.length ≤ m) :
    readLossy n bs = readLossy m bs := by
  induction n generalizing m bs with
  | zero =>
    obtain rfl := List.length_eq_zero_iff.mp (Nat.le_zero.mp hn)
    rw [readLossy_nil, readLossy_nil]
  | succ n ih =>
    cases bs with
    | nil => rw [readLossy_nil, readLossy_nil]
    | cons b bs =>
      cases m with
      | zero => exact absurd hm (Nat.not_succ_le_zero _)
      | succ m =>
        have fewer := (List.drop_sublist ((readChar b bs).behind bs.length) bs).length_le
        rw [readLossy_cons, readLossy_cons,
          ih (Nat.le_trans fewer (Nat.le_of_succ_le_succ hn))
            (Nat.le_trans fewer (Nat.le_of_succ_le_succ hm))]

/-- Nothing is read from no bytes. -/
@[simp] theorem lossy_nil : lossy [] = [] := rfl

private theorem lossy_cons (b : UInt8) (bs : List UInt8) :
    lossy (b :: bs) =
      (readChar b bs).shown :: lossy (bs.drop ((readChar b bs).behind bs.length)) := by
  rw [lossy, List.length_cons, readLossy_cons, lossy,
    readLossy_congr (List.drop_sublist _ _).length_le (Nat.le_refl _)]

/-- What is read character by character holds of all bytes when it holds of none and a character in
front does not matter. -/
theorem reading_induction {P : List UInt8 → Prop} (nil : P [])
    (cons : ∀ b bs, P (bs.drop ((readChar b bs).behind bs.length)) → P (b :: bs)) :
    ∀ bs, P bs
  | [] => nil
  | b :: bs => cons b bs (reading_induction nil cons _)
termination_by bs => bs.length
decreasing_by exact Nat.lt_succ_of_le (List.drop_sublist _ _).length_le

/-- The bytes that characters are written as. -/
abbrev written (cs : List Char) : List UInt8 := cs.flatMap String.utf8EncodeChar

/-- The character that comes first in a written text is read, and the others are left. -/
theorem readChar_written (c : Char) (cs : List Char) : ∃ b bs, written (c :: cs) = b :: bs ∧
    (readChar b bs).shown = c ∧ bs.drop ((readChar b bs).behind bs.length) = written cs := by
  obtain ⟨b, bs, encoded, read⟩ := readChar_encoded c
  refine ⟨b, bs ++ written cs, by simp [written, encoded], ?_, ?_⟩
  · rw [read]
    rfl
  · rw [read]
    exact List.drop_left

private theorem lossy_written (cs : List Char) : lossy (written cs) = cs := by
  induction cs with
  | nil => rfl
  | cons c cs ih =>
    obtain ⟨b, bs, encoded, shown, behind⟩ := readChar_written c cs
    rw [encoded, lossy_cons, shown, behind, ih]

/-- A text is encoded character by character. -/
theorem encode_toList (s : String) : (encode s).data.toList = written s.toList := by
  rw [encode, String.toUTF8, ← String.utf8Encode_toList, List.utf8Encode, List.data_toByteArray,
    List.toList_toArray]

/-- Bytes that are UTF-8 are the bytes of their text. -/
theorem eq_encode_of_fromUTF8? {b : ByteArray} {s : String} (h : String.fromUTF8? b = some s) :
    b = encode s := by
  unfold String.fromUTF8? at h
  split at h
  · cases h
    rfl
  · cases h

/-- Bytes are read character by character, be they UTF-8 or not. -/
theorem decode_eq (b : ByteArray) : decode b = String.ofList (lossy b.data.toList) := by
  unfold decode
  cases utf8 : String.fromUTF8? b with
  | none => rfl
  | some s =>
    rw [eq_encode_of_fromUTF8? utf8, encode_toList, lossy_written]
    exact String.ofList_toList.symm

/-- Bytes that are UTF-8 are written again as they were. -/
theorem encode_decode {b : ByteArray} (utf8 : b.IsValidUTF8) : encode (decode b) = b := by
  have text : String.fromUTF8? b = some (String.fromUTF8 b utf8) := dif_pos utf8
  rw [decode, text]
  rfl

/-! ### Texts that are cut -/

private theorem readChar_of_isTail {b : UInt8} (h : IsTail b) (bs : List UInt8) :
    readChar b bs = .invalid 1 := by
  obtain ⟨low, high⟩ := h
  have none : leadRange b.toNat = none := by
    unfold leadRange
    repeat' split
    all_goals first | rfl | omega
  rw [readChar, if_neg (Nat.not_lt.mpr low), none]

/-- A byte that cannot begin a character is replaced on its own. -/
theorem lossy_of_tails {bs : List UInt8} {n : Nat} (there : n ≤ bs.length)
    (tails : ∀ b ∈ bs.take n, IsTail b) :
    lossy bs = List.replicate n '\uFFFD' ++ lossy (bs.drop n) := by
  induction n generalizing bs with
  | zero => rfl
  | succ n ih =>
    cases bs with
    | nil => exact absurd there (Nat.not_succ_le_zero n)
    | cons b bs =>
      obtain ⟨first, tails⟩ := List.forall_mem_cons.mp tails
      rw [lossy_cons, readChar_of_isTail first, List.replicate_succ, List.cons_append,
        List.drop_succ_cons, ← ih (Nat.le_of_succ_le_succ there) tails]
      rfl

/-- Bytes end inside a character, and other bytes go on with it. -/
inductive Divides : List UInt8 → List UInt8 → Prop where
  | last (b : UInt8) (bs : List UInt8) (c : UInt8) (cs : List UInt8)
    (ends : readChar b bs = .incomplete)
    (goesOn : readChar b (bs ++ [c]) ≠ .invalid (bs.length + 1)) : Divides (b :: bs) (c :: cs)
  | behind (b : UInt8) (bs cs : List UInt8) (whole : readChar b bs ≠ .incomplete)
    (rest : Divides (bs.drop ((readChar b bs).behind bs.length)) cs) : Divides (b :: bs) cs

/-- What was read whole is read in the same way when more bytes follow. -/
theorem readChar_append {b : UInt8} {bs : List UInt8} (whole : readChar b bs ≠ .incomplete)
    (more : List UInt8) : readChar b (bs ++ more) = readChar b bs := by
  cases lead b with
  | single r _ _ read => rw [read, read]
  | several low high acc left _ read =>
    rw [read] at whole
    rw [read, read, readTail_append whole]

private theorem behind_le {b : UInt8} {bs : List UInt8} (there : Nat)
    (whole : readChar b bs ≠ .incomplete) : (readChar b bs).behind there ≤ bs.length := by
  cases lead b with
  | single r _ alone read =>
    rw [read, alone]
    exact Nat.zero_le _
  | several low high acc left bounds read =>
    rw [read] at whole ⊢
    have tail := tailRead (left + 1) bounds acc 1 bs
    generalize readTail _ _ _ _ _ bs = r at tail whole ⊢
    cases tail with
    | char c enough _ => simpa [Reading.behind] using enough
    | invalid n there _ => simpa [Reading.behind] using Nat.le_of_lt there
    | incomplete _ => exact absurd rfl whole

/-- What was read whole does not change what the bytes behind it are read as. -/
theorem lossy_cons_append {b : UInt8} {bs : List UInt8} (whole : readChar b bs ≠ .incomplete)
    (more : List UInt8) :
    lossy (b :: bs ++ more) =
      (readChar b bs).shown :: lossy (bs.drop ((readChar b bs).behind bs.length) ++ more) := by
  have same : (readChar b bs).behind (bs ++ more).length = (readChar b bs).behind bs.length := by
    generalize readChar b bs = r at whole ⊢
    cases r with
    | char _ _ => rfl
    | invalid _ => rfl
    | incomplete => exact absurd rfl whole
  rw [List.cons_append, lossy_cons, readChar_append whole, same,
    List.drop_append_of_le_length (behind_le _ whole)]

/-- Bytes that end inside their only character show as one. -/
theorem lossy_of_incomplete {b : UInt8} {bs : List UInt8} (ends : readChar b bs = .incomplete) :
    lossy (b :: bs) = ['\uFFFD'] := by
  rw [lossy_cons, ends]
  simp [Reading.shown, Reading.behind]

private theorem lossy_append {a b : List UInt8} (h : ¬ Divides a b) :
    lossy (a ++ b) = lossy a ++ lossy b := by
  induction a using reading_induction with
  | nil => rfl
  | cons x xs ih =>
    by_cases ends : readChar x xs = .incomplete
    · cases b with
      | nil => simp
      | cons c cs =>
        -- The next byte does not go on with the character, so the fault ends where the bytes do.
        have fails : readChar x (xs ++ [c]) = .invalid (xs.length + 1) :=
          Decidable.not_not.mp fun goesOn => h (.last x xs c cs ends goesOn)
        have read := readChar_append (by rw [fails]; exact nofun) cs
        rw [List.append_assoc, List.singleton_append, fails] at read
        rw [lossy_of_incomplete ends, List.cons_append, lossy_cons, read]
        simp [Reading.shown, Reading.behind]
    · rw [lossy_cons_append ends, lossy_cons x xs,
        ih fun rest => h (.behind x xs b ends rest), List.cons_append]

/-- The bytes that go on with a character and those that are read along with them show as no more
than one character. -/
theorem lossy_of_goesOn {b c : UInt8} {bs : List UInt8} (ends : readChar b bs = .incomplete)
    (goesOn : readChar b (bs ++ [c]) ≠ .invalid (bs.length + 1)) (cs : List UInt8) :
    ∃ (shown : Char) (n : Nat), n ≤ cs.length ∧ (∀ x ∈ (c :: cs).take (n + 1), IsTail x) ∧
      lossy (b :: bs ++ c :: cs) = shown :: lossy (cs.drop n) := by
  have behind (n : Nat) : (bs ++ c :: cs).drop (1 + bs.length + 1 + n - 1) = cs.drop n := by
    rw [Nat.add_assoc, Nat.add_assoc, Nat.add_sub_cancel_left, List.drop_length_add_append,
      Nat.add_comm 1, List.drop_succ_cons]
  cases lead b with
  | single r whole _ read => exact absurd ((read bs).symm.trans ends) whole
  | several low high acc left bounds read =>
    rw [read] at ends
    obtain ⟨low', high', acc', left', bounds', resumed⟩ := resume_readTail bounds ends
    rw [read, resumed, readTail] at goesOn
    by_cases accepted : low' ≤ c.toNat ∧ c.toNat ≤ high'
    · have first := bounds'.isTail accepted
      have tail := tailRead left' .tail (acc' * 64 + (c.toNat - 0x80)) (1 + bs.length + 1) cs
      rw [List.cons_append, lossy_cons, read, resumed, readTail, if_pos accepted]
      -- The byte was taken, so reading goes on behind it: to a whole character, to a byte that does
      -- not fit, or to the end.
      generalize readTail _ _ _ _ left' cs = r at tail ⊢
      cases tail with
      | char s enough tails =>
        exact ⟨s, left', enough, List.forall_mem_cons.mpr ⟨first, tails⟩, by
          rw [Reading.behind, behind]; rfl⟩
      | invalid n there tails =>
        exact ⟨'\uFFFD', n, Nat.le_of_lt there, List.forall_mem_cons.mpr ⟨first, tails⟩, by
          rw [Reading.behind, behind]; rfl⟩
      | incomplete tails =>
        refine ⟨'\uFFFD', cs.length, Nat.le_refl _, ?_, ?_⟩
        · rw [List.take_succ_cons, List.take_length]
          exact List.forall_mem_cons.mpr ⟨first, tails⟩
        · rw [Reading.behind, List.drop_length, List.drop_length]
          rfl
    · rw [if_neg accepted, Nat.add_comm 1] at goesOn
      exact absurd rfl goesOn

/-- How many characters stand in the lines of a text. -/
def inLines (cs : List Char) : Nat := cs.countP (· != '\n')

/-- A character that is divided is lost: its parts show as more characters than it does. -/
theorem inLines_lt_of_divides {a b : List UInt8} (h : Divides a b) :
    inLines (lossy (a ++ b)) < inLines (lossy a) + inLines (lossy b) := by
  induction h with
  | last x xs c cs ends goesOn =>
    obtain ⟨shown, n, enough, tails, whole⟩ := lossy_of_goesOn ends goesOn cs
    -- Apart, the first bytes show as one fault and each of those that go on as one of its own.
    have parts : inLines (lossy (x :: xs)) = 1 ∧
        inLines (lossy (c :: cs)) = n + 1 + inLines (lossy (cs.drop n)) := by
      rw [lossy_of_incomplete ends, lossy_of_tails (Nat.succ_le_succ enough) tails]
      simp [inLines, List.countP_append, List.countP_replicate]
    have one : inLines (shown :: lossy (cs.drop n)) ≤ inLines (lossy (cs.drop n)) + 1 := by
      unfold inLines
      rw [List.countP_cons]
      split <;> omega
    rw [whole, parts.1, parts.2]
    omega
  | behind x xs cs whole rest ih =>
    rw [lossy_cons_append whole, lossy_cons x xs]
    simp only [inLines, List.countP_cons] at ih ⊢
    omega

/-- No character is divided between some bytes and those of the pieces behind them. -/
def Undivided : List (List UInt8) → Prop
  | [] => True
  | bs :: pieces => ¬ Divides bs pieces.flatten ∧ Undivided pieces

/-- Pieces that cut no character in two may be read one by one. -/
theorem lossy_flatten {pieces : List (List UInt8)} (h : Undivided pieces) :
    lossy pieces.flatten = pieces.flatMap lossy := by
  induction pieces with
  | nil => rfl
  | cons bs pieces ih => rw [List.flatten_cons, lossy_append h.1, ih h.2, List.flatMap_cons]

/-- Line ends are counted in both parts of a text. -/
theorem inLines_append (s t : List Char) : inLines (s ++ t) = inLines s + inLines t :=
  List.countP_append

/-- Pieces between which a character is divided show as more characters than all bytes at once. -/
theorem inLines_flatten_lt {pieces : List (List UInt8)} (h : ¬ Undivided pieces) :
    inLines (lossy pieces.flatten) < inLines (pieces.flatMap lossy) := by
  induction pieces with
  | nil => exact absurd trivial h
  | cons bs pieces ih =>
    rw [List.flatten_cons, List.flatMap_cons, inLines_append]
    by_cases divided : Divides bs pieces.flatten
    · have rest : inLines (lossy pieces.flatten) ≤ inLines (pieces.flatMap lossy) := by
        by_cases whole : Undivided pieces
        · exact Nat.le_of_eq (congrArg inLines (lossy_flatten whole))
        · exact Nat.le_of_lt (ih whole)
      exact Nat.lt_of_lt_of_le (inLines_lt_of_divides divided) (Nat.add_le_add_left rest _)
    · rw [lossy_append divided, inLines_append]
      exact Nat.add_lt_add_left (ih fun whole => h ⟨divided, whole⟩) _

/-- A text ends with a whole character. -/
theorem not_divides_written (cs : List Char) (more : List UInt8) :
    ¬ Divides (written cs) more := by
  induction cs with
  | nil => exact nofun
  | cons c cs ih =>
    obtain ⟨b, bs, encoded, read⟩ := readChar_encoded c
    have char := read (written cs)
    have start : written (c :: cs) = b :: (bs ++ written cs) := by simp [written, encoded]
    rw [start]
    intro divided
    cases divided with
    | last _ _ _ _ ends _ => rw [char] at ends; cases ends
    | behind _ _ _ _ rest =>
      rw [char] at rest
      exact ih (by simpa [Reading.behind] using rest)

/-- Strings that are texts have no character divided between them. -/
theorem undivided_of_utf8 {strings : List ByteArray} (utf8 : ∀ s ∈ strings, s.IsValidUTF8) :
    Undivided (strings.map (·.data.toList)) := by
  induction strings with
  | nil => trivial
  | cons s strings ih =>
    obtain ⟨first, rest⟩ := List.forall_mem_cons.mp utf8
    have last := not_divides_written (String.ofByteArray s first).toList
    rw [← encode_toList] at last
    exact ⟨last _, ih rest⟩

end LuaHost.Text
