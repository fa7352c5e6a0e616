import LuaHost.Lua.Numeral
import LuaHost.Text.Encoding

/-!
# Values of Lua

Tables, functions written in Lua and variables live in the heap of an interpreter state and are
named by references. Functions of the library are values of their own, and so are failures
that the host raises into a script.
-/

namespace LuaHost.Lua

/-- The functions of the library. -/
inductive Builtin where
  | print
  | write
  | register
  | sendSignal
  | type
  | tostring
  | select
  | pcall
  | error
  | assert
  | load
  | rawget
  | rawset
  | rawequal
  | rawlen
  | getmetatable
  | setmetatable
  | next
  | pairs
  | ipairs
  | ipairsStep
  | collectgarbage
  | stringRep
  | tableConcat
  /-- A function that exists under its name but cannot be called here. -/
  | absent (name : String)
  deriving DecidableEq

/-- A reference to a table of the heap. -/
structure TableRef where
  index : Nat
  deriving DecidableEq

/-- A reference to a function of the heap. -/
structure ClosureRef where
  index : Nat
  deriving DecidableEq

/-- A reference to a variable of the heap. -/
structure VariableRef where
  index : Nat
  deriving DecidableEq

/-- A value. -/
inductive Value where
  | nil
  | bool (b : Bool)
  | int (i : Int64)
  | float (x : Binary64)
  | str (s : ByteArray)
  | table (r : TableRef)
  | closure (r : ClosureRef)
  | builtin (f : Builtin)
  /-- A failure raised by the host, with the text it is shown as. -/
  | failure (text : ByteArray)
  deriving DecidableEq

namespace Value

instance : Inhabited Value := ⟨.nil⟩

/-- Everything but `nil` and `false` counts as true. -/
def isTrue : Value → Bool
  | .nil => false
  | .bool b => b
  | _ => true

/-- The name of the type of a value. -/
def typeName : Value → String
  | .nil => "nil"
  | .bool _ => "boolean"
  | .int _ | .float _ => "number"
  | .str _ => "string"
  | .table _ => "table"
  | .closure _ | .builtin _ => "function"
  | .failure _ => "userdata"

/-- The name of the type of a value as the host sees it. -/
def hostTypeName : Value → String
  | .int _ => "integer"
  | .failure _ => "error"
  | v => v.typeName

/-- A text as a value. -/
def text (s : String) : Value := .str s.toUTF8

/-- A number as a value. -/
def ofNumeral : Numeral → Value
  | .int i => .int i
  | .float x => .float x

/-- The number a value is; strings are not read. -/
def numeral? : Value → Option Numeral
  | .int i => some (.int i)
  | .float x => some (.float x)
  | _ => none

/-- The number a value is or, for a string, is read as. -/
def toNumeral? : Value → Option Numeral
  | .int i => some (.int i)
  | .float x => some (.float x)
  | .str s => Numeral.ofString? s.data.toList
  | _ => none

/-- The string a value is or, for a number, is written as. -/
def toBytes? : Value → Option ByteArray
  | .str s => some s
  | .int i => some (Numeral.text (.int i)).toUTF8
  | .float x => some (Numeral.text (.float x)).toUTF8
  | _ => none

/-- The key that a value stands for in a table: a float with an integer value stands for that
integer. -/
def key : Value → Value
  | .float x =>
    match x.toInt? with
    | some i =>
      if Int64.minValue.toInt ≤ i ∧ i ≤ Int64.maxValue.toInt then .int (Int64.ofInt i) else .float x
    | none => .float x
  | v => v

/-- Compare an integer with a float exactly. -/
def intCompare (i : Int) (x : Binary64) : Option Ordering :=
  if x.isNaN then none
  else if x.isInfinite then some (if x.isNegative then .gt else .lt)
  else
    let (num, den) := x.ratio
    let n : Int := if x.isNegative then -num else num
    some (compare (i * den) n)

/-- Compare two numbers; not-a-number compares with nothing. -/
def compareNumerals : Numeral → Numeral → Option Ordering
  | .int i, .int j => some (compare i.toInt j.toInt)
  | .int i, .float y => intCompare i.toInt y
  | .float x, .int j => (intCompare j.toInt x).map Ordering.swap
  | .float x, .float y =>
    if x.isNaN || y.isNaN then none else some (compare x.orderKey y.orderKey)

/-- Equality of values without metamethods: numbers by what they are worth, everything else by
what it is. -/
def rawEqual (v w : Value) : Bool :=
  match v.numeral?, w.numeral? with
  | some m, some n => compareNumerals m n = some .eq
  | _, _ => v = w

/-- The order of byte sequences, a shorter one before those it begins. -/
def bytesLess : List UInt8 → List UInt8 → Bool
  | _, [] => false
  | [], _ :: _ => true
  | a :: as, b :: bs => a < b || (a = b && bytesLess as bs)

end Value

end LuaHost.Lua
