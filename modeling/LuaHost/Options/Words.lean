import LuaHost.Text.Blank

/-!
# Words of a directive

Words are separated by blanks. Double quotes group blanks into a word and may stand anywhere in
it; inside them a backslash takes the next character as it is, and two quotes alone are an
empty word.
-/

namespace LuaHost.Words

/-- Where the reader of words stands. -/
inductive Mode where
  | between
  | bare
  | quoted
  | escaped

/-- Put a character in front of the open word. -/
def push (c : Char) : List Char × List (List Char) → List Char × List (List Char)
  | (word, rest) => (c :: word, rest)

/-- The rest of the open word, and the words after it. -/
def scan : Mode → List Char → List Char × List (List Char)
  | _, [] => ([], [])
  | .between, c :: cs =>
    if Text.isWordBreak c then scan .between cs
    else
      let (word, rest) := if c = '"' then scan .quoted cs else push c (scan .bare cs)
      ([], word :: rest)
  | .bare, c :: cs =>
    if c = '"' then scan .quoted cs
    else if Text.isWordBreak c then ([], (scan .between cs).2)
    else push c (scan .bare cs)
  | .quoted, c :: cs =>
    if c = '"' then scan .bare cs
    else if c = '\\' then scan .escaped cs
    else push c (scan .quoted cs)
  | .escaped, c :: cs => push c (scan .quoted cs)

/-- The words of a text. -/
def ofChars (s : List Char) : List (List Char) := (scan .between s).2

/-- A word between double quotes, with a backslash before each quote and backslash in it. -/
def quote (word : List Char) : List Char :=
  '"' :: (word.flatMap fun c => if c = '"' ∨ c = '\\' then ['\\', c] else [c]) ++ ['"']

end LuaHost.Words
