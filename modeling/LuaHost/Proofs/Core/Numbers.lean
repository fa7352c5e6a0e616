import LuaHost.Core.Run
import LuaHost.Proofs.Core.Writing
import LuaHost.Proofs.Core.Silence
import LuaHost.Proofs.Number.Written

/-!
# Numbers that a script writes

The function that writes to a stream gives a number the text that `print` and `tostring` give it if
the number is an integer. A float of integral value may get another text.
-/

namespace LuaHost.Lua

namespace Machine

/-- A machine that calls a library function. -/
def calling (m : Machine) (f : Builtin) (site : Site) (args : List Value) : Machine :=
  { m with control := .call (.builtin f) args site }

/-- A value is written to a stream as the text that it is shown as, by `tostring` and in a line of
`print`. -/
def WritesAsShown (m : Machine) (v : Value) : Prop :=
  ∃ text, ∀ site,
    (m.calling .write site [v]).step = .asking (.write text) (m.calling .write site [v]) ∧
    (m.calling .tostring site [v]).step = m.goto (.values [.str (Text.encode text)]) ∧
    ∃ next, (m.calling .print site [v]).comesTo? 3 = some (.asking (.write (text ++ "\n")) next)

variable {m : Machine} {site : Site} {v : Value}

/-- Writing a value asks for its text to be appended to the output. -/
theorem step_calling_write {text : String} (h : Library.writtenText? v = some text) :
    (m.calling .write site [v]).step = .asking (.write text) (m.calling .write site [v]) := by
  have asked : Library.write [v] = .ask (.write text) := by
    simp [Library.write, h]
  simp only [calling, step, call, Library.call, asked]

/-- The text of a value that has no metamethod for it is given as a string. -/
theorem step_calling_tostring (plain : m.heap.metamethod v "__tostring" = .nil) :
    (m.calling .tostring site [v]).step = m.goto (.values [.str (plainText v)]) := by
  simp [calling, step, call, Library.call, Library.withAny, plain, goto]

/-- Printing a value asks for its text to be appended to the output, as a line. -/
theorem comesTo?_calling_print (plain : m.heap.metamethod v "__tostring" = .nil) :
    ∃ next, (m.calling .print site [v]).comesTo? 3 =
      some (.asking (.write (Text.decode (plainText v) ++ "\n")) next) := by
  simp [calling, comesTo?, step, call, Library.call, printNext, plain, goto]

/-- A value without a metamethod is written as it is shown just if its two texts are the same. -/
theorem writesAsShown_iff {w t : String} (plain : m.heap.metamethod v "__tostring" = .nil)
    (written : Library.writtenText? v = some w) (shown : plainText v = Text.encode t) :
    m.WritesAsShown v ↔ w = t := by
  constructor
  · rintro ⟨text, same⟩
    obtain ⟨asks, gives, -⟩ := same .outside
    rw [step_calling_write written] at asks
    rw [step_calling_tostring plain, shown] at gives
    have text_written : w = text := by simpa using asks
    have text_shown : Text.encode t = Text.encode text := by simpa [goto] using gives
    rw [text_written, Text.encode_injective text_shown]
  · rintro rfl
    refine ⟨w, fun site => ⟨step_calling_write written, ?_, ?_⟩⟩
    · rw [step_calling_tostring plain, shown]
    · obtain ⟨next, printed⟩ := comesTo?_calling_print (m := m) plain
      exact ⟨next, by rwa [shown, Text.decode_encode] at printed⟩

variable (m) (x : Binary64)

private theorem writesAsShown_int (i : Int64) : m.WritesAsShown (.int i) :=
  writesAsShown_iff rfl rfl rfl |>.mpr rfl

private theorem writesAsShown_float_iff :
    m.WritesAsShown (.float x) ↔ Decimal.written x = Decimal.floatText x :=
  writesAsShown_iff rfl rfl rfl

/-- Every integer is written as it is shown, and a float of integral value just if it has no more
than fourteen digits, or if it has more than fifteen and a decimal of no more than fourteen digits
is read as it. -/
theorem writesAsShown_number_iff :
    (∀ i : Int64, m.WritesAsShown (.int i)) ∧
      ∀ (x : Binary64) (k : Int), x.toInt? = some k →
        (m.WritesAsShown (.float x) ↔
          k.natAbs < 10 ^ 14 ∨ 10 ^ 15 ≤ k.natAbs ∧ Decimal.Short x) := by
  refine ⟨m.writesAsShown_int, fun x k whole => ?_⟩
  rw [writesAsShown_float_iff, Decimal.written_eq_floatText_iff whole]

/-- A power of ten that a float does not hold exactly needs one digit. -/
theorem writesAsShown_power_of_ten :
    (Binary64.ofInt (-10 ^ 23)).toInt? = some (-99999999999999991611392) ∧
      Core.idle.WritesAsShown (.float (.ofInt (-10 ^ 23))) := by
  have whole : (Binary64.ofInt (-10 ^ 23)).toInt? = some (-99999999999999991611392) := by
    decide +kernel
  have short : Decimal.Short (.ofInt (-10 ^ 23)) :=
    ⟨1, 23, by decide, by decide +kernel⟩
  exact ⟨whole, ((writesAsShown_number_iff Core.idle).2 _ _ whole).mpr (.inr ⟨by decide, short⟩)⟩

/-- Fifteen digits are written in full, although they are shown with an exponent. -/
theorem written_in_full :
    (Binary64.ofInt (10 ^ 14)).toInt? = some (10 ^ 14) ∧
      (Core.idle.calling .write .outside [.float (.ofInt (10 ^ 14))]).step =
        .asking (.write "100000000000000.0")
          (Core.idle.calling .write .outside [.float (.ofInt (10 ^ 14))]) ∧
      (Core.idle.calling .tostring .outside [.float (.ofInt (10 ^ 14))]).step =
        Core.idle.goto (.values [.text "1e+14"]) ∧
      ¬Core.idle.WritesAsShown (.float (.ofInt (10 ^ 14))) := by
  have written : Decimal.written (.ofInt (10 ^ 14)) = "100000000000000.0" := by decide +kernel
  have shown : Decimal.floatText (.ofInt (10 ^ 14)) = "1e+14" := by decide +kernel
  refine ⟨by decide +kernel, step_calling_write (congrArg some written), ?_, ?_⟩
  · rw [step_calling_tostring rfl, plainText, Numeral.text, shown]
    rfl
  · rw [writesAsShown_float_iff, written, shown]
    decide

end Machine

end LuaHost.Lua
