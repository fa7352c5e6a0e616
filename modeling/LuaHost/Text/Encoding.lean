/-!
# Bytes as text

A byte sequence is read as UTF-8. Text written as bytes reads back unchanged; where bytes are
not UTF-8, the longest run that could still have begun a character is replaced by one U+FFFD.
-/

namespace LuaHost.Text

/-- Bytes are compared by the test that comes with their type, whatever else a library offers. -/
instance decEqBytes : DecidableEq ByteArray := ByteArray.instDecidableEq

/-- What stands at the start of a byte sequence that is read as UTF-8. -/
inductive Reading where
  /-- One character, written in `width` bytes. -/
  | char (c : Char) (width : Nat)
  /-- The first `width` bytes begin no character. -/
  | invalid (width : Nat)
  /-- The sequence ends inside a character. -/
  | incomplete
  deriving DecidableEq

/-- The range that the second byte of a character must lie in, and the number of bytes of the
character, by its first byte. -/
def leadRange (b : Nat) : Option (Nat × Nat × Nat) :=
  if 0xC2 ≤ b ∧ b ≤ 0xDF then some (0x80, 0xBF, 2)
  else if b = 0xE0 then some (0xA0, 0xBF, 3)
  else if b = 0xED then some (0x80, 0x9F, 3)
  else if 0xE1 ≤ b ∧ b ≤ 0xEF then some (0x80, 0xBF, 3)
  else if b = 0xF0 then some (0x90, 0xBF, 4)
  else if 0xF1 ≤ b ∧ b ≤ 0xF3 then some (0x80, 0xBF, 4)
  else if b = 0xF4 then some (0x80, 0x8F, 4)
  else none

/-- Read the bytes after the first one: `width` counts those read, `left` those still due, and
`low` and `high` bound the next one. -/
def readTail (low high : Nat) (acc width : Nat) : Nat → List UInt8 → Reading
  | 0, _ => .char (Char.ofNat acc) width
  | _ + 1, [] => .incomplete
  | left + 1, b :: bs =>
    if low ≤ b.toNat ∧ b.toNat ≤ high then
      readTail 0x80 0xBF (acc * 64 + (b.toNat - 0x80)) (width + 1) left bs
    else .invalid width

/-- Read the character that a byte sequence starts with. -/
def readChar (b : UInt8) (bs : List UInt8) : Reading :=
  let n := b.toNat
  if n < 0x80 then .char (Char.ofNat n) 1
  else match leadRange n with
    | none => .invalid 1
    | some (low, high, width) =>
      let bits := if width = 2 then n - 0xC0 else if width = 3 then n - 0xE0 else n - 0xF0
      readTail low high bits 1 (width - 1) bs

/-- Read at most `fuel` characters, each faulty run as U+FFFD. -/
def readLossy : Nat → List UInt8 → List Char
  | 0, _ => []
  | _, [] => []
  | fuel + 1, b :: bs =>
    match readChar b bs with
    | .char c width => c :: readLossy fuel (bs.drop (width - 1))
    | .invalid width => '\uFFFD' :: readLossy fuel (bs.drop (width - 1))
    | .incomplete => ['\uFFFD']

/-- Why a byte sequence is not UTF-8. -/
inductive Fault where
  | invalid (width offset : Nat)
  | incomplete (offset : Nat)
  deriving DecidableEq

/-- The first fault of a byte sequence whose first byte has the given offset. -/
def firstFault : Nat → Nat → List UInt8 → Option Fault
  | 0, _, _ => none
  | _, _, [] => none
  | fuel + 1, offset, b :: bs =>
    match readChar b bs with
    | .char _ width => firstFault fuel (offset + width) (bs.drop (width - 1))
    | .invalid width => some (.invalid width offset)
    | .incomplete => some (.incomplete offset)

/-- The words in which a fault is reported. -/
def Fault.message : Fault → String
  | .invalid width offset => s!"invalid utf-8 sequence of {width} bytes from index {offset}"
  | .incomplete offset => s!"incomplete utf-8 byte sequence from index {offset}"

/-- The bytes of a text. -/
def encode (s : String) : ByteArray := s.toUTF8

/-- The text of bytes that are UTF-8, or their first fault. -/
def decode? (b : ByteArray) : Except Fault String :=
  match String.fromUTF8? b with
  | some s => .ok s
  | none => .error ((firstFault b.size 0 b.data.toList).getD (.incomplete 0))

/-- The text of any bytes: UTF-8 is taken as it is, faulty runs become U+FFFD. -/
def decode (b : ByteArray) : String :=
  match String.fromUTF8? b with
  | some s => s
  | none => String.ofList (readLossy b.size b.data.toList)

/-- A text that is encoded reads back. -/
theorem fromUTF8?_encode (s : String) : String.fromUTF8? (encode s) = some s := by
  unfold String.fromUTF8? encode
  split
  · rfl
  · rename_i h
    exact absurd s.isValidUTF8 h

/-- Text written as bytes reads back unchanged. -/
@[simp] theorem decode_encode (s : String) : decode (encode s) = s := by
  simp [decode, fromUTF8?_encode]

/-- Text written as bytes has no fault. -/
@[simp] theorem decode?_encode (s : String) : decode? (encode s) = .ok s := by
  simp [decode?, fromUTF8?_encode]

/-- Different texts are written as different bytes. -/
theorem encode_injective {s t : String} (h : encode s = encode t) : s = t := by
  have := congrArg decode h
  simpa using this

end LuaHost.Text
