import LuaHost.Number.Binary64

/-!
# Decimal texts of numbers

Two readings of a binary64 number as decimal digits: rounded to a fixed number of significant
digits, and the fewest digits that read back. From them the two number formats: `general`
is used where Lua turns a number into text, `written` where a script writes a number to a
stream.
-/

namespace LuaHost.Decimal

/-- A positive decimal `digits · 10 ^ scale`. -/
structure Scaled where
  digits : Nat
  scale : Int
  deriving DecidableEq

/-- The decimal digits of a natural number. -/
def digitsOf (n : Nat) : List Char := Nat.toDigits 10 n

/-- A ratio times a power of ten, as a ratio. -/
def shift (num den : Nat) : Int → Nat × Nat
  | .ofNat e => (num * Nat.pow 10 e, den)
  | .negSucc e => (num, den * Nat.pow 10 (e + 1))

/-- The power of ten of the leading digit of a positive ratio. -/
def leading (num den : Nat) : Int :=
  let guess : Int := ((digitsOf num).length : Int) - ((digitsOf den).length : Int)
  let (n, d) := shift num den (-guess)
  if d ≤ n then guess else guess - 1

/-- Drop zeros at the end, at most `fuel` of them. -/
def stripZeros : Nat → Scaled → Scaled
  | 0, s => s
  | fuel + 1, s =>
    if s.digits ≠ 0 ∧ s.digits % 10 = 0 then stripZeros fuel ⟨s.digits / 10, s.scale + 1⟩ else s

/-- A positive ratio rounded to `places` significant digits, a tie to the even digit. -/
def rounded (places : Nat) (num den : Nat) : Scaled :=
  let scale := leading num den - (places - 1 : Nat)
  let (n, d) := shift num den (-scale)
  stripZeros places ⟨Binary64.roundDiv n d, scale⟩

/-- Whether `c · 10 ^ scale` lies between two bounds with a common denominator; the bounds count
when `closed`. -/
def between (closed : Bool) (low high den : Nat) (c : Nat) (scale : Int) : Bool :=
  let (n, d) := match scale with
    | .ofNat e => (c * Nat.pow 10 e * den, 1)
    | .negSucc e => (c * den, Nat.pow 10 (e + 1))
  if closed then low * d ≤ n && n ≤ high * d else low * d < n && n < high * d

/-- Try grids of `places` significant digits and more. On each the two neighbours of the value
`mid / den` are tried, the nearer one first. -/
def shortestFrom (closed : Bool) (low mid high den : Nat) (lead : Int) : Nat → Nat → Scaled
  | 0, places => ⟨0, lead - places⟩
  | fuel + 1, places =>
    let scale := lead - (places - 1 : Nat)
    let (n, d) := shift mid den (-scale)
    let below := n / d
    let (near, far) := if 2 * (n % d) ≤ d then (below, below + 1) else (below + 1, below)
    if between closed low high den near scale then ⟨near, scale⟩
    else if between closed low high den far scale then ⟨far, scale⟩
    else shortestFrom closed low mid high den lead fuel (places + 1)

/-- The fewest digits that read back as a finite number other than zero, sign aside. -/
def shortest (x : Binary64) : Scaled :=
  let m := x.mantissa
  let (unit, den) : Nat × Nat := match x.exponent - 2 with
    | .ofNat e => (Nat.pow 2 e, 1)
    | .negSucc e => (1, Nat.pow 2 (e + 1))
  let gap := if m = Nat.pow 2 52 && x.biasedExponent > 1 then 1 else 2
  let low := (4 * m - gap) * unit
  let mid := 4 * m * unit
  let high := (4 * m + 2) * unit
  stripZeros 20 (shortestFrom (m % 2 = 0) low mid high den (leading mid den) 18 1)

/-- Digits with the point after the first `whole` of them. -/
def pointAfter (digits : List Char) (whole : Nat) : List Char :=
  let front := digits.take whole
  let back := digits.drop whole
  if back.isEmpty then front else front ++ '.' :: back

/-- A positive decimal in positional form. -/
def positional (s : Scaled) : List Char :=
  let digits := digitsOf s.digits
  match s.scale with
  | .ofNat e => digits ++ List.replicate e '0'
  | .negSucc e =>
    let places := e + 1
    if digits.length ≤ places then
      "0.".toList ++ List.replicate (places - digits.length) '0' ++ digits
    else pointAfter digits (digits.length - places)

/-- The power of ten of the leading digit. -/
def Scaled.lead (s : Scaled) : Int := s.scale + ((digitsOf s.digits).length - 1 : Nat)

/-- An exponent with its sign and at least two digits. -/
def exponentText (e : Int) : List Char :=
  let digits := digitsOf e.natAbs
  (if e < 0 then '-' else '+') :: (if digits.length < 2 then '0' :: digits else digits)

/-- A positive decimal with one digit before the point and an exponent. -/
def scientific (s : Scaled) : List Char :=
  pointAfter (digitsOf s.digits) 1 ++ 'e' :: exponentText s.lead

/-- A text with a minus sign if the number is negative. -/
def signed (negative : Bool) (s : List Char) : String :=
  String.ofList (if negative then '-' :: s else s)

/-- A number with at most fourteen significant digits: positional for exponents from -4 to 13. -/
def general (x : Binary64) : String :=
  if x.isNaN then signed x.isNegative "nan".toList
  else if x.isInfinite then signed x.isNegative "inf".toList
  else if x.magnitude = 0 then signed x.isNegative "0".toList
  else
    let (num, den) := x.ratio
    let s := rounded 14 num den
    signed x.isNegative (if -4 ≤ s.lead ∧ s.lead < 14 then positional s else scientific s)

/-- The text Lua gives a float: one that looks like an integer ends in `.0`. -/
def floatText (x : Binary64) : String :=
  let text := general x
  if text.toList.all fun c => c == '-' || c.isDigit then text ++ ".0" else text

/-- The text a float is written to a stream with: integers below 10^15 with one decimal, other
magnitudes from 10^-4 up to 10^15 positional, and the rest with an exponent, in each case with
the fewest digits that read back. -/
def written (x : Binary64) : String :=
  if x.isNaN then "nan"
  else if x.isInfinite then signed x.isNegative "inf".toList
  else
    let (num, den) := x.ratio
    if num % den = 0 ∧ num < Nat.pow 10 15 * den then
      signed x.isNegative (digitsOf (num / den) ++ ".0".toList)
    else if Nat.pow 10 15 * den ≤ num ∨ num * Nat.pow 10 4 < den then
      signed x.isNegative (scientific (shortest x))
    else signed x.isNegative (positional (shortest x))

end LuaHost.Decimal
