/-!
# Blank characters and trimming

A blank is a character with the Unicode property `White_Space`. Trimming removes blanks
from an end of a text and nothing else.
-/

namespace LuaHost.Text

/-- The characters with the Unicode property `White_Space`. -/
def isBlank (c : Char) : Bool :=
  let n := c.toNat
  (9 ≤ n && n ≤ 13) || n = 32 || n = 0x85 || n = 0xA0 || n = 0x1680 ||
    (0x2000 ≤ n && n ≤ 0x200A) || n = 0x2028 || n = 0x2029 || n = 0x202F ||
    n = 0x205F || n = 0x3000

/-- The blanks of the ASCII range without the vertical tab, which separate words of a directive. -/
def isWordBreak (c : Char) : Bool :=
  c = ' ' || c = '\t' || c = '\n' || c = '\r' || c = '\x0c'

/-- Drop the blanks a text starts with. -/
def trimStart (s : List Char) : List Char := s.dropWhile isBlank

/-- Drop the blanks a text ends with. -/
def trimEnd (s : List Char) : List Char := (s.reverse.dropWhile isBlank).reverse

/-- Drop the blanks at both ends of a text. -/
def trim (s : List Char) : List Char := trimEnd (trimStart s)

/-- Every word break is a blank. -/
theorem isBlank_of_isWordBreak {c : Char} (h : isWordBreak c = true) : isBlank c = true := by
  simp only [isWordBreak, Bool.or_eq_true, decide_eq_true_eq] at h
  rcases h with (((h | h) | h) | h) | h <;> subst h <;> decide

end LuaHost.Text
