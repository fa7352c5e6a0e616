/-!
# Handles of host objects

A handle names a host object such as a buffer. It is written `0x` with lower-case hexadecimal
digits; a reader also takes `0X`, upper-case digits and one plus sign before the digits.
-/

namespace LuaHost

/-- An opaque 64-bit handle of a host object. -/
structure Handle where
  bits : UInt64
  deriving DecidableEq

namespace Handle

/-- The value of a hexadecimal digit. -/
def digit? (c : Char) : Option Nat :=
  if '0' ≤ c ∧ c ≤ '9' then some (c.toNat - 48)
  else if 'a' ≤ c ∧ c ≤ 'f' then some (c.toNat - 87)
  else if 'A' ≤ c ∧ c ≤ 'F' then some (c.toNat - 55)
  else none

/-- The value of a run of hexadecimal digits that follow digits of value `acc`. -/
def number? (acc : Nat) : List Char → Option Nat
  | [] => some acc
  | c :: cs => (digit? c).bind fun d => number? (acc * 16 + d) cs

/-- One plus sign is allowed in front of the digits. -/
def unsigned : List Char → List Char
  | '+' :: cs => cs
  | cs => cs

/-- The digits of a written handle. -/
def digits? : List Char → Option (List Char)
  | '0' :: 'x' :: cs => some cs
  | '0' :: 'X' :: cs => some cs
  | _ => none

/-- Read a written handle; its value has to fit 64 bits. -/
def parse? (text : String) : Option Handle := do
  let written := unsigned (← digits? text.toList)
  if written.isEmpty then none
  else
    let n ← number? 0 written
    if n < UInt64.size then some ⟨n.toUInt64⟩ else none

/-- The digits of a number in base 16, lower case, without leading zeros. -/
def hexDigits (n : Nat) : List Char := Nat.toDigits 16 n

/-- The written form of a handle. -/
def text (h : Handle) : String := "0x" ++ String.ofList (hexDigits h.bits.toNat)

end Handle

end LuaHost
