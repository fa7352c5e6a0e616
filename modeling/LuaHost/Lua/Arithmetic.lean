import LuaHost.Lua.Syntax
import LuaHost.Lua.Value

/-!
# Arithmetic and comparison

Integers wrap around at 64 bits; an operation with a float, a quotient and a power are floats.
-/

namespace LuaHost.Lua

namespace Numeral

/-- A number as a float. -/
def toFloat : Numeral → Binary64
  | .int i => Binary64.ofInt i.toInt
  | .float x => x

/-- A number as an integer, if it is worth one of 64 bits. -/
def toInt? : Numeral → Option Int64
  | .int i => some i
  | .float x => x.toInt?.bind fun i =>
    if Int64.minValue.toInt ≤ i ∧ i ≤ Int64.maxValue.toInt then some (Int64.ofInt i) else none

/-- Whether a number is an integer of 64 bits. -/
def isInt : Numeral → Bool
  | .int _ => true
  | .float _ => false

/-- The operation on two integers, or on two floats otherwise. -/
def mixed (onInts : Int64 → Int64 → Int64) (onFloats : Binary64 → Binary64 → Binary64)
    (a b : Numeral) : Numeral :=
  match a, b with
  | .int i, .int j => .int (onInts i j)
  | _, _ => .float (onFloats a.toFloat b.toFloat)

end Numeral

/-- A quotient or remainder of integers by zero. -/
inductive ZeroDivision where
  | quotient
  | remainder

/-- The words of a division by zero. -/
def ZeroDivision.message : ZeroDivision → String
  | .quotient => "attempt to perform 'n//0'"
  | .remainder => "attempt to perform 'n%%0'"

/-- The quotient of two integers, rounded down. -/
def floorDivInt (i j : Int64) : Int64 := Int64.ofInt (Int.fdiv i.toInt j.toInt)

/-- The remainder of two integers that has the sign of the divisor. -/
def floorModInt (i j : Int64) : Int64 := Int64.ofInt (Int.fmod i.toInt j.toInt)

/-- Apply an arithmetic operator to two numbers. -/
def arithmetic (op : BinaryOp) (a b : Numeral) : Except ZeroDivision Numeral :=
  match op with
  | .add => .ok (Numeral.mixed (· + ·) Binary64.add a b)
  | .sub => .ok (Numeral.mixed (· - ·) Binary64.sub a b)
  | .mul => .ok (Numeral.mixed (· * ·) Binary64.mul a b)
  | .div => .ok (.float (Binary64.div a.toFloat b.toFloat))
  | .pow => .ok (.float (Binary64.pow a.toFloat b.toFloat))
  | .floorDiv =>
    if b = .int 0 ∧ a.isInt then .error .quotient
    else .ok (Numeral.mixed floorDivInt Binary64.floorDiv a b)
  | _ =>
    if b = .int 0 ∧ a.isInt then .error .remainder
    else .ok (Numeral.mixed floorModInt Binary64.floorMod a b)

/-- The negative of a number. -/
def Numeral.negated : Numeral → Numeral
  | .int i => .int (-i)
  | .float x => .float x.neg

/-- Whether the first of two values is less than the second, or not greater when `orEqual`;
`none` when they cannot be compared. -/
def lessThan? (orEqual : Bool) (v w : Value) : Option Bool :=
  match v, w with
  | .str s, .str t =>
    some (Value.bytesLess s.data.toList t.data.toList || (orEqual && s = t))
  | _, _ =>
    match v.numeral?, w.numeral? with
    | some a, some b =>
      let order := Value.compareNumerals a b
      some (order = some .lt || (orEqual && order = some .eq))
    | _, _ => none

/-- A counting loop: the value to come, the last one allowed and the step. -/
inductive Counter where
  | ints (next stop step : Int)
  | floats (next stop step : Binary64)

namespace Counter

/-- Whether the value to come is within the limit. -/
def isAlive : Counter → Bool
  | .ints next stop step => if step > 0 then next ≤ stop else stop ≤ next
  | .floats next stop step =>
    if Binary64.lt .zero step then Binary64.le next stop else Binary64.le stop next

/-- The value to come. -/
def value : Counter → Value
  | .ints next _ _ => .int (Int64.ofInt next)
  | .floats next _ _ => .float next

/-- Go on by one step. -/
def advance : Counter → Counter
  | .ints next stop step => .ints (next + step) stop step
  | .floats next stop step => .floats (Binary64.add next step) stop step

/-- The integer next to the least one of 64 bits. -/
def below : Int := Int64.minValue.toInt - 1

/-- The integer next to the greatest one of 64 bits. -/
def above : Int := Int64.maxValue.toInt + 1

/-- The limit of a loop over integers: a float is rounded towards the start, and what is beyond
the integers is replaced by the last integer on that side. -/
def intLimit (step : Int) : Numeral → Int
  | .int i => i.toInt
  | .float x =>
    if x.isNaN then (if step > 0 then below else above)
    else if x.isInfinite then (if x.isNegative then below else above)
    else if step > 0 then x.floorInt else -(x.neg.floorInt)

/-- Why a loop cannot begin. -/
inductive Fault where
  | notNumber (what : String) (v : Value)
  | zeroStep

/-- The words of a loop that cannot begin. -/
def Fault.message : Fault → String
  | .notNumber what v => s!"bad 'for' {what} (number expected, got {v.typeName})"
  | .zeroStep => "'for' step is zero"

/-- Begin a loop. It counts in integers when the start and the step are integers. -/
def begin (start stop step : Value) : Except Fault Counter :=
  match start, step, stop.numeral? with
  | .int i, .int d, limit =>
    if d = 0 then .error .zeroStep
    else match limit with
      | some limit =>
        let last := intLimit d.toInt limit
        .ok (.ints i.toInt (max below (min last above)) d.toInt)
      | none => .error (.notNumber "limit" stop)
  | _, _, none => .error (.notNumber "limit" stop)
  | _, _, some limit =>
    match step.numeral?, start.numeral? with
    | none, _ => .error (.notNumber "step" step)
    | _, none => .error (.notNumber "initial value" start)
    | some d, some i =>
      if Binary64.eq d.toFloat .zero then .error .zeroStep
      else .ok (.floats i.toFloat limit.toFloat d.toFloat)

end Counter

end LuaHost.Lua
