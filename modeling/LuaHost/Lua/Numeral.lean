import LuaHost.Number.Decimal

/-!
# Numerals

The written forms of numbers, as they stand in a chunk or in a string that is used as a number.
A decimal integer that does not fit 64 bits is a float; a hexadecimal one wraps.
-/

namespace LuaHost.Lua

/-- A number: an integer of 64 bits or a float. -/
inductive Numeral where
  | int (i : Int64)
  | float (x : Binary64)
  deriving DecidableEq

namespace Numeral

/-- A decimal digit. -/
def isDigit (b : UInt8) : Bool := 48 ≤ b && b ≤ 57

/-- The value of a hexadecimal digit. -/
def hexValue? (b : UInt8) : Option Nat :=
  if isDigit b then some (b.toNat - 48)
  else if 97 ≤ b && b ≤ 102 then some (b.toNat - 87)
  else if 65 ≤ b && b ≤ 70 then some (b.toNat - 55)
  else none

/-- A hexadecimal digit. -/
def isHexDigit (b : UInt8) : Bool := (hexValue? b).isSome

/-- The blanks that may surround a numeral in a string. -/
def isSpace (b : UInt8) : Bool := b = 32 || (9 ≤ b && b ≤ 13)

/-- The value of digits in a base. -/
def valueOf (base : Nat) (digits : List UInt8) : Nat :=
  digits.foldl (fun n b => n * base + (hexValue? b).getD 0) 0

/-- A fraction: the digits after a point, if there is one, and what follows them. -/
def fraction (digit : UInt8 → Bool) : List UInt8 → List UInt8 × List UInt8
  | 46 :: rest => (rest.takeWhile digit, rest.dropWhile digit)
  | rest => ([], rest)

/-- An exponent up to the end of the text; `none` when the text is no exponent. -/
def exponent? (mark : UInt8) : List UInt8 → Option Int
  | [] => some 0
  | b :: rest =>
    if b ||| 32 ≠ mark then none
    else
      let (negative, digits) := match rest with
        | 45 :: ds => (true, ds)
        | 43 :: ds => (false, ds)
        | ds => (false, ds)
      if digits.isEmpty || !digits.all isDigit then none
      else
        let n : Int := valueOf 10 digits
        some (if negative then -n else n)

/-- Read a hexadecimal numeral behind its `0x`. -/
def readHex? (negative : Bool) (text : List UInt8) : Option Numeral :=
  let whole := text.takeWhile isHexDigit
  let rest := text.dropWhile isHexDigit
  if rest.isEmpty then
    if whole.isEmpty then none
    else
      let n : Int := valueOf 16 whole
      some (.int (Int64.ofInt (if negative then -n else n)))
  else
    let (part, rest) := fraction isHexDigit rest
    if whole.isEmpty && part.isEmpty then none
    else (exponent? 112 rest).map fun e =>
      let x := Binary64.ofBinary (valueOf 16 (whole ++ part)) (e - 4 * part.length)
      .float (if negative then x.neg else x)

/-- Read a decimal numeral. -/
def readDecimal? (negative : Bool) (text : List UInt8) : Option Numeral :=
  let whole := text.takeWhile isDigit
  let rest := text.dropWhile isDigit
  let float (part : List UInt8) (e : Int) : Numeral :=
    let x := Binary64.ofDecimal (valueOf 10 (whole ++ part)) (e - part.length)
    .float (if negative then x.neg else x)
  if rest.isEmpty then
    if whole.isEmpty then none
    else
      let n := valueOf 10 whole
      if n < Nat.pow 2 63 + (if negative then 1 else 0) then
        some (.int (Int64.ofInt (if negative then -(n : Int) else n)))
      else some (float [] 0)
  else
    let (part, rest) := fraction isDigit rest
    if whole.isEmpty && part.isEmpty then none
    else (exponent? 101 rest).map (float part)

/-- Read a numeral without a sign. -/
def readUnsigned? (negative : Bool) : List UInt8 → Option Numeral
  | 48 :: 120 :: rest => readHex? negative rest
  | 48 :: 88 :: rest => readHex? negative rest
  | text => readDecimal? negative text

/-- Read a string that is used as a number; blanks around it and a sign are allowed. -/
def ofString? (text : List UInt8) : Option Numeral :=
  let inner := ((text.dropWhile isSpace).reverse.dropWhile isSpace).reverse
  match inner with
  | 45 :: rest => readUnsigned? true rest
  | 43 :: rest => readUnsigned? false rest
  | rest => readUnsigned? false rest

/-- The text of a number. -/
def text : Numeral → String
  | .int i => toString i.toInt
  | .float x => Decimal.floatText x

end Numeral

end LuaHost.Lua
