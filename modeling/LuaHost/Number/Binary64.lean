/-!
# Floating-point numbers by their bits

A binary64 number is kept as its 64 bits, so equality is equality of representations and a
not-a-number keeps its sign. The value of a finite number is `mantissa · 2 ^ exponent`;
conversions to and from integers and ratios are exact integer arithmetic, rounded to nearest
with ties to even.
-/

namespace LuaHost

/-- A binary64 number. -/
structure Binary64 where
  bits : UInt64
  deriving DecidableEq

namespace Binary64

/-- The quotient rounded to the nearest integer, a tie to the even one. -/
def roundDiv (num den : Nat) : Nat :=
  let q := num / den
  let r := 2 * (num % den)
  if r < den then q else if den < r then q + 1 else q + q % 2

/-- The sign bit is set. -/
def isNegative (x : Binary64) : Bool := x.bits.toNat ≥ Nat.pow 2 63

/-- The bits without the sign. -/
def magnitude (x : Binary64) : Nat := x.bits.toNat % Nat.pow 2 63

/-- The exponent field. -/
def biasedExponent (x : Binary64) : Nat := x.magnitude / Nat.pow 2 52

/-- The fraction field. -/
def fraction (x : Binary64) : Nat := x.bits.toNat % Nat.pow 2 52

/-- Not a number. -/
def isNaN (x : Binary64) : Bool := x.biasedExponent = 2047 && x.fraction ≠ 0

/-- Infinite. -/
def isInfinite (x : Binary64) : Bool := x.biasedExponent = 2047 && x.fraction = 0

/-- Neither infinite nor not a number. -/
def isFinite (x : Binary64) : Bool := x.biasedExponent ≠ 2047

/-- The integer part of the value of a finite number, before scaling. -/
def mantissa (x : Binary64) : Nat :=
  if x.biasedExponent = 0 then x.fraction else Nat.pow 2 52 + x.fraction

/-- The power of two that scales the mantissa. -/
def exponent (x : Binary64) : Int :=
  if x.biasedExponent = 0 then -1074 else (x.biasedExponent : Int) - 1075

/-- The absolute value of a finite number as a ratio. -/
def ratio (x : Binary64) : Nat × Nat :=
  match x.exponent with
  | .ofNat e => (x.mantissa * Nat.pow 2 e, 1)
  | .negSucc e => (x.mantissa, Nat.pow 2 (e + 1))

/-- Bits with a sign. -/
def withSign (negative : Bool) (magnitude : Nat) : Binary64 :=
  ⟨(if negative then Nat.pow 2 63 + magnitude else magnitude).toUInt64⟩

/-- Zero. -/
def zero : Binary64 := ⟨0⟩

/-- Infinity. -/
def infinity (negative : Bool) : Binary64 := withSign negative (2047 * Nat.pow 2 52)

/-- The result of an operation that has none: not a number, with the sign bit set. -/
def undefined : Binary64 := withSign true (2047 * Nat.pow 2 52 + Nat.pow 2 51)

/-- Encode `m · 2 ^ q` for `m ≤ 2 ^ 53` and `q ≥ -1074`, where `m < 2 ^ 52` only when
`q = -1074`. Too large a value is infinite. -/
def ofScaled (negative : Bool) (m : Nat) (q : Int) : Binary64 :=
  let (m, q) := if m ≥ Nat.pow 2 53 then (m / 2, q + 1) else (m, q)
  if m < Nat.pow 2 52 then withSign negative m
  else
    let biased := q + 1075
    if biased ≥ 2047 then infinity negative
    else withSign negative (biased.toNat * Nat.pow 2 52 + (m - Nat.pow 2 52))

/-- The quotient of a ratio and a power of two, as a ratio. -/
def scaleDown (num den : Nat) : Int → Nat × Nat
  | .ofNat e => (num, den * Nat.pow 2 e)
  | .negSucc e => (num * Nat.pow 2 (e + 1), den)

/-- The number nearest to a ratio, a tie to the even mantissa. -/
def ofRatio (negative : Bool) (num den : Nat) : Binary64 :=
  if num = 0 then withSign negative 0
  else
    let coarse : Int := max ((num.log2 : Int) - (den.log2 : Int) - 53) (-1074)
    let (n, d) := scaleDown num den coarse
    let q := if n / d ≥ Nat.pow 2 53 then coarse + 1 else coarse
    let (n, d) := scaleDown num den q
    ofScaled negative (roundDiv n d) q

/-- The number nearest to an integer. -/
def ofInt (i : Int) : Binary64 := ofRatio (i < 0) i.natAbs 1

/-- The number nearest to `digits · 10 ^ exponent`. Beyond the range of binary64 it is infinite
or zero at once. -/
def ofDecimal (digits : Nat) (exponent : Int) : Binary64 :=
  if digits = 0 then zero
  else if exponent > 400 then infinity false
  else if exponent < -400 - (Nat.log2 digits : Int) then zero
  else match exponent with
    | .ofNat e => ofRatio false (digits * Nat.pow 10 e) 1
    | .negSucc e => ofRatio false digits (Nat.pow 10 (e + 1))

/-- The number nearest to `digits · 2 ^ exponent`. -/
def ofBinary (digits : Nat) (exponent : Int) : Binary64 :=
  if digits = 0 then zero
  else if exponent > 2000 then infinity false
  else if exponent < -2000 - (Nat.log2 digits : Int) then zero
  else match exponent with
    | .ofNat e => ofRatio false (digits * Nat.pow 2 e) 1
    | .negSucc e => ofRatio false digits (Nat.pow 2 (e + 1))

/-- The greatest integer that is not above a finite number. -/
def floorInt (x : Binary64) : Int :=
  let (num, den) := x.ratio
  if x.isNegative then -(((num + den - 1) / den : Nat) : Int) else ((num / den : Nat) : Int)

/-- The value of a finite number that is an integer. -/
def toInt? (x : Binary64) : Option Int :=
  if x.isFinite then
    let (num, den) := x.ratio
    if num % den = 0 then
      some (if x.isNegative then -((num / den : Nat) : Int) else ((num / den : Nat) : Int))
    else none
  else none

/-- The greatest integral number that is not above a number. -/
def floor (x : Binary64) : Binary64 :=
  if x.isFinite && (toInt? x).isNone then ofInt x.floorInt else x

/-- The same magnitude with the other sign. -/
def neg (x : Binary64) : Binary64 := withSign (!x.isNegative) x.magnitude

/-- A key by which numbers other than not-a-number are ordered; both zeros have key 0. -/
def orderKey (x : Binary64) : Int :=
  if x.isNegative then -(x.magnitude : Int) else (x.magnitude : Int)

/-- Strictly less; not-a-number is less than nothing. -/
def lt (x y : Binary64) : Bool := !x.isNaN && !y.isNaN && x.orderKey < y.orderKey

/-- Less or equal; not-a-number is not even equal to itself. -/
def le (x y : Binary64) : Bool := !x.isNaN && !y.isNaN && x.orderKey ≤ y.orderKey

/-- Equal in value. -/
def eq (x y : Binary64) : Bool := !x.isNaN && !y.isNaN && x.orderKey = y.orderKey

/-- Apply an operation. A result that is not a number is the operand that already was none. -/
def lift (op : Float → Float → Float) (x y : Binary64) : Binary64 :=
  let r : Binary64 := ⟨(op (Float.ofBits x.bits) (Float.ofBits y.bits)).toBits⟩
  if r.isNaN then (if x.isNaN then x else if y.isNaN then y else undefined) else r

/-- The sum, rounded. -/
def add : Binary64 → Binary64 → Binary64 := lift (· + ·)
/-- The difference, rounded. -/
def sub : Binary64 → Binary64 → Binary64 := lift (· - ·)
/-- The product, rounded. -/
def mul : Binary64 → Binary64 → Binary64 := lift (· * ·)
/-- The quotient, rounded. -/
def div : Binary64 → Binary64 → Binary64 := lift (· / ·)

/-- Powers; a square is one multiplication. -/
def pow (x y : Binary64) : Binary64 :=
  if y = ofInt 2 then mul x x else lift Float.pow x y

/-- The quotient rounded towards minus infinity. -/
def floorDiv (x y : Binary64) : Binary64 := floor (div x y)

/-- The remainder that has the sign of the divisor. -/
def floorMod (x y : Binary64) : Binary64 :=
  if x.isNaN then x
  else if y.isNaN then y
  else if x.isInfinite || y.magnitude = 0 then undefined
  else if y.isInfinite then
    if x.magnitude = 0 || x.isNegative = y.isNegative then x else y
  else
    let (a, b) := x.ratio
    let (c, d) := y.ratio
    let rest := (a * d) % (c * b)
    let exact := ofRatio x.isNegative rest (b * d)
    if rest ≠ 0 && x.isNegative ≠ y.isNegative then add exact y else exact

end Binary64

end LuaHost
