import LuaHost.Lua.Token

/-!
# Cutting a chunk into tokens

The lexer reads bytes and counts lines; a carriage return and a line feed next to each other,
in either order, end one line. Text that is no token becomes a fault, after which nothing is
read.
-/

namespace LuaHost.Lua.Lexer

/-- A letter or an underscore. -/
def isLetter (b : UInt8) : Bool := (65 ≤ b && b ≤ 90) || (97 ≤ b && b ≤ 122) || b = 95

/-- A letter, an underscore or a digit. -/
def isWord (b : UInt8) : Bool := isLetter b || Numeral.isDigit b

/-- A byte that ends a line. -/
def isLineEnd (b : UInt8) : Bool := b = 10 || b = 13

/-- What follows a line end that begins with `b`. -/
def afterLineEnd (b : UInt8) : List UInt8 → List UInt8
  | c :: rest => if isLineEnd c && c ≠ b then rest else c :: rest
  | [] => []

/-- A fault at a text. -/
def faultNear (message : String) (text : List UInt8) : Token :=
  .fault (ascii message ++ ascii " near " ++ Token.quoted text)

/-- The level of a long bracket whose first bracket `mark` was read, and what follows its second
one. -/
def longBracket? (mark : UInt8) (s : List UInt8) : Option (Nat × List UInt8) :=
  match s.dropWhile (· = 61) with
  | b :: rest => if b = mark then some ((s.takeWhile (· = 61)).length, rest) else none
  | [] => none

/-- The text up to the closing long bracket of a level and what follows, if the bracket is closed,
and the line that reading stopped on; the text is collected in reverse. -/
def readLong (level : Nat) : Nat → Nat → List UInt8 → List UInt8 →
    Nat × Option (List UInt8 × List UInt8)
  | 0, line, _, _ => (line, none)
  | _, line, _, [] => (line, none)
  | fuel + 1, line, acc, b :: rest =>
    if b = 93 then
      match longBracket? 93 rest with
      | some (n, after) =>
        if n = level then (line, some (acc.reverse, after))
        else readLong level fuel line (b :: acc) rest
      | none => readLong level fuel line (b :: acc) rest
    else if isLineEnd b then readLong level fuel (line + 1) (10 :: acc) (afterLineEnd b rest)
    else readLong level fuel line (b :: acc) rest

/-- Skip a line end right after an opening long bracket. -/
def skipFirstLineEnd (line : Nat) : List UInt8 → Nat × List UInt8
  | b :: rest => if isLineEnd b then (line + 1, afterLineEnd b rest) else (line, b :: rest)
  | [] => (line, [])

/-- Read a long string or comment whose opening bracket was read, and tell the line that reading
stopped on. -/
def readLongText (what : String) (level line : Nat) (s : List UInt8) :
    Nat × Except Token (List UInt8 × List UInt8) :=
  let (first, body) := skipFirstLineEnd line s
  match readLong level (s.length + 1) first [] body with
  | (last, some r) => (last, .ok r)
  | (last, none) =>
    (last, .error (.fault (ascii s!"unfinished long {what} (starting at line {line}) near <eof>")))

/-- The bytes of a code point, also one beyond Unicode, up to 31 bits. -/
def codePointBytes (n : Nat) : List UInt8 :=
  let tail (k : Nat) : List UInt8 :=
    ((List.range k).reverse.map fun i => (0x80 + n / Nat.pow 64 i % 64).toUInt8)
  if n < 0x80 then [n.toUInt8]
  else if n < 0x800 then (0xC0 + n / 64).toUInt8 :: tail 1
  else if n < 0x10000 then (0xE0 + n / Nat.pow 64 2).toUInt8 :: tail 2
  else if n < 0x200000 then (0xF0 + n / Nat.pow 64 3).toUInt8 :: tail 3
  else if n < 0x4000000 then (0xF8 + n / Nat.pow 64 4).toUInt8 :: tail 4
  else (0xFC + n / Nat.pow 64 5).toUInt8 :: tail 5

/-- What an escape sequence stands for. -/
inductive Escape where
  | bytes (s rest : List UInt8)
  | newline (rest : List UInt8)
  /-- Blanks and line ends are skipped. -/
  | skip (rest : List UInt8)
  /-- No escape sequence; `seen` is what was read of it. -/
  | bad (message : String) (seen : List UInt8)

/-- The byte that a one-letter escape stands for. -/
def simpleEscape? (b : UInt8) : Option UInt8 :=
  match b with
  | 97 => some 7
  | 98 => some 8
  | 102 => some 12
  | 110 => some 10
  | 114 => some 13
  | 116 => some 9
  | 118 => some 11
  | 92 | 34 | 39 => some b
  | _ => none

/-- An escape fault shows the byte at which it was noticed. -/
def badEscape (message : String) (seen rest : List UInt8) : Escape :=
  .bad message (seen ++ rest.take 1)

/-- Read two hexadecimal digits. -/
def readHexEscape : List UInt8 → Escape
  | a :: b :: rest =>
    match Numeral.hexValue? a, Numeral.hexValue? b with
    | some x, some y => .bytes [(16 * x + y).toUInt8] rest
    | some _, none => badEscape "hexadecimal digit expected" [120, a] (b :: rest)
    | none, _ => badEscape "hexadecimal digit expected" [120] (a :: b :: rest)
  | [a] => .bad "hexadecimal digit expected" [120, a]
  | [] => .bad "hexadecimal digit expected" [120]

/-- Read a code point between braces. -/
def readCodePoint (s : List UInt8) : Escape :=
  match s with
  | 123 :: rest =>
    let digits := rest.takeWhile Numeral.isHexDigit
    let after := rest.dropWhile Numeral.isHexDigit
    let n := Numeral.valueOf 16 digits
    if digits.isEmpty then badEscape "hexadecimal digit expected" [117, 123] after
    else if n ≥ Nat.pow 2 31 then
      badEscape "UTF-8 value too large" (117 :: 123 :: digits.dropLast) digits
    else match after with
      | 125 :: after => .bytes (codePointBytes n) after
      | after => badEscape "missing '\x7d'" (117 :: 123 :: digits) after
  | rest => badEscape "missing '\x7b'" [117] rest

/-- Read up to three decimal digits. -/
def readDecimalEscape (s : List UInt8) : Escape :=
  let digits := (s.take 3).takeWhile Numeral.isDigit
  let n := Numeral.valueOf 10 digits
  let rest := s.drop digits.length
  if n > 255 then badEscape "decimal escape too large" digits rest
  else .bytes [n.toUInt8] rest

/-- Read an escape sequence behind its backslash. -/
def readEscape : List UInt8 → Escape
  | [] => .bytes [] []
  | b :: rest =>
    match simpleEscape? b with
    | some c => .bytes [c] rest
    | none =>
      if isLineEnd b then .newline (afterLineEnd b rest)
      else if b = 120 then readHexEscape rest
      else if b = 117 then readCodePoint rest
      else if b = 122 then .skip rest
      else if Numeral.isDigit b then readDecimalEscape (b :: rest)
      else badEscape "invalid escape sequence" [] (b :: rest)

/-- Skip blanks and count the lines they end. -/
def skipBlanks : Nat → Nat → List UInt8 → Nat × List UInt8
  | 0, line, s => (line, s)
  | _, line, [] => (line, [])
  | fuel + 1, line, b :: rest =>
    if isLineEnd b then skipBlanks fuel (line + 1) (afterLineEnd b rest)
    else if Numeral.isSpace b then skipBlanks fuel line rest
    else (line, b :: rest)

/-- Read a string up to its closing quote; what was read of it is collected in reverse. -/
def readString (quote : UInt8) : Nat → Nat → List UInt8 → List UInt8 →
    Nat × Except Token (List UInt8 × List UInt8)
  | 0, line, _, _ => (line, .error (.fault (ascii "unfinished string near <eof>")))
  | _, line, _, [] => (line, .error (.fault (ascii "unfinished string near <eof>")))
  | fuel + 1, line, acc, b :: rest =>
    if b = quote then (line, .ok (acc.reverse, rest))
    else if isLineEnd b then
      (line, .error (faultNear "unfinished string" (quote :: acc.reverse)))
    else if b = 92 then
      match readEscape rest with
      | .bytes s rest => readString quote fuel line (s.reverse ++ acc) rest
      | .newline rest => readString quote fuel (line + 1) (10 :: acc) rest
      | .skip rest =>
        let (line, rest) := skipBlanks fuel line rest
        readString quote fuel line acc rest
      | .bad message seen => (line, .error (faultNear message (quote :: acc.reverse ++ 92 :: seen)))
    else readString quote fuel line (b :: acc) rest

/-- The bytes that belong to a numeral: digits, points, exponent marks and a sign right behind
one; `marked` tells that a mark was just read. One letter more belongs to it and spoils it. -/
def numeralText (mark : UInt8) (marked : Bool) : List UInt8 → List UInt8
  | [] => []
  | b :: rest =>
    if marked && (b = 43 || b = 45) then b :: numeralText mark false rest
    else if b ||| 32 = mark then b :: numeralText mark true rest
    else if Numeral.isHexDigit b || b = 46 then b :: numeralText mark false rest
    else if isLetter b then [b]
    else []

/-- Read a numeral that a text starts with. -/
def readNumeral (s : List UInt8) : Token × List UInt8 × List UInt8 :=
  let text := match s with
    | 48 :: 120 :: rest => 48 :: 120 :: numeralText 112 false rest
    | 48 :: 88 :: rest => 48 :: 88 :: numeralText 112 false rest
    | rest => numeralText 101 false rest
  let token := match Numeral.readUnsigned? false text with
    | some n => .number n
    | none => faultNear "malformed number" text
  (token, text, s.drop text.length)

/-- The operators, longer ones first. -/
def operators : List String :=
  ["...", "..", "==", "~=", "<=", ">=", "<<", ">>", "//", "::", "+", "-", "*", "/", "%", "^", "#",
    "&", "~", "|", "<", ">", "=", "(", ")", "\x7b", "\x7d", "[", "]", ";", ":", ",", "."]

/-- The operator that a text starts with. -/
def operator? (s : List UInt8) : Option String :=
  operators.find? fun op => (ascii op).isPrefixOf s

/-- The text of ASCII bytes. -/
def textOf (s : List UInt8) : String := String.ofList (s.map fun b => Char.ofNat b.toNat)

/-- Read the token that a text starts with, on a line, where the text starts with no blank and no
comment. -/
def readToken (line : Nat) (s : List UInt8) : Lexeme × List UInt8 :=
  let stop (token : Token) (line : Nat) : Lexeme × List UInt8 := (⟨token, [], line⟩, [])
  match s with
  | [] => stop .done line
  | b :: rest =>
    if isLetter b then
      let word := (b :: rest).takeWhile isWord
      let x := textOf word
      (⟨if x ∈ Token.reserved then .fixed x else .name x, word, line⟩, rest.dropWhile isWord)
    else if Numeral.isDigit b || (b = 46 && rest.head?.any Numeral.isDigit) then
      let (token, text, rest) := readNumeral (b :: rest)
      (⟨token, text, line⟩, rest)
    else if b = 34 || b = 39 then
      match readString b (rest.length + 1) line [] rest with
      | (line, .ok (content, after)) =>
        (⟨.str ⟨content.toArray⟩, b :: content ++ [b], line⟩, after)
      | (line, .error fault) => stop fault line
    else if b = 91 then
      match longBracket? 91 rest with
      | some (level, body) =>
        match readLongText "string" level line body with
        | (last, .ok (content, after)) =>
          (⟨.str ⟨content.toArray⟩, s.take (s.length - after.length), last⟩, after)
        | (last, .error fault) => stop fault last
      | none =>
        if rest.head? = some 61 then
          stop (faultNear "invalid long string delimiter" (91 :: rest.takeWhile (· = 61))) line
        else (⟨.fixed "[", [91], line⟩, rest)
    else match operator? s with
      | some op => (⟨.fixed op, ascii op, line⟩, s.drop op.length)
      | none => (⟨.byte b, [b], line⟩, rest)

/-- Skip blanks and comments; a long comment that does not end is a fault. -/
def skipSpace : Nat → Nat → List UInt8 → Nat × Except Token (List UInt8)
  | 0, line, s => (line, .ok s)
  | fuel + 1, line, s =>
    match skipBlanks (s.length + 1) line s with
    | (line, 45 :: 45 :: rest) =>
      match rest with
      | 91 :: inner =>
        match longBracket? 91 inner with
        | some (level, body) =>
          match readLongText "comment" level line body with
          | (last, .ok (_, after)) => skipSpace fuel last after
          | (last, .error fault) => (last, .error fault)
        | none => skipSpace fuel line (rest.dropWhile (! isLineEnd ·))
      | _ => skipSpace fuel line (rest.dropWhile (! isLineEnd ·))
    | (line, rest) => (line, .ok rest)

/-- Read tokens until the end of the text or a fault. -/
def readTokens : Nat → Nat → List UInt8 → List Lexeme
  | 0, line, _ => [⟨.done, [], line⟩]
  | fuel + 1, line, s =>
    match skipSpace (s.length + 1) line s with
    | (line, .error fault) => [⟨fault, [], line⟩]
    | (line, .ok rest) =>
      let (lexeme, after) := readToken line rest
      match lexeme.token with
      | .done | .fault _ => [lexeme]
      | _ => lexeme :: readTokens fuel lexeme.line after

/-- The tokens of a chunk. The last one is the end of the chunk or a fault. -/
def tokens (s : List UInt8) : List Lexeme := readTokens (s.length + 1) 1 s

end LuaHost.Lua.Lexer
