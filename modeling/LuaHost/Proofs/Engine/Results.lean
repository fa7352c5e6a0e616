import LuaHost.Proofs.Binary64
import LuaHost.Proofs.Engine.Delivery

/-!
# Results of calls

The first value that a function returns is the result of the call if it fits the kind of result
that the host wants. Otherwise there is no result, and the engine says so unless none is wanted.
-/

namespace LuaHost

open Lua (Heap Outcome Value)

namespace Core

/-- A flush leaves nothing to hand over, whoever is active then. -/
theorem delivery?_flush (c : Core) (script : Option String) :
    c.flush.output.delivery? script = none := by
  cases waiting : c.output.delivery? c.activeName? with
  | none =>
    rw [flush_of_none waiting]
    unfold Output.delivery? at waiting ⊢
    split at waiting
    · next empty => rw [if_pos empty]
    · next text =>
      rw [if_neg text]
      split at waiting
      · cases waiting
      · exact waiting
  | some d =>
    rw [flush_of_some waiting]
    rfl

/-- The line in which a message of the engine is printed as an error. -/
def complaint (message : String) : Event := .print none (errorMark ++ engineName ++ ": " ++ message)

/-- Complain about one thing after the other. -/
def complainAll (c : Core) (messages : List String) : Core := messages.foldl complain c

private theorem events_complainAll (c : Core) (messages : List String) :
    (c.complainAll messages).events = c.events ++ (messages.map complaint).toArray := by
  unfold complainAll
  induction messages generalizing c with
  | nil => simp
  | cons message messages ih =>
    rw [List.foldl_cons, ih, complain, print, emit]
    simp [complaint]

private theorem output_complainAll (c : Core) (messages : List String) :
    (c.complainAll messages).output = c.output := by
  unfold complainAll
  induction messages generalizing c with
  | nil => rfl
  | cons message messages ih => exact ih (c.complain message)

/-- Complaints behind a flush leave nothing to flush. -/
theorem flush_complainAll_flush (c : Core) (messages : List String) :
    (c.flush.complainAll messages).flush = c.flush.complainAll messages := by
  refine flush_of_none ?_
  rw [output_complainAll]
  exact c.delivery?_flush _

end Core

/-! ### Values that fit -/

/-- An integer that a value is worth: itself, 1 or 0 for a truth value, and the value of a float. -/
inductive Worth : Value → Int64 → Prop where
  | int (k : Int64) : Worth (.int k) k
  | bool (b : Bool) : Worth (.bool b) (if b then 1 else 0)
  | float {x : Binary64} {k : Int64} (finite : x.isFinite = true) (value : x.value = k.toInt) :
    Worth (.float x) k

/-- The float that is worth the least integer of 64 bits. -/
def IsLeast : Value → Prop
  | .float x => x.isFinite = true ∧ x.value = -2 ^ 63
  | _ => False

/-- The result that a value is for the host, by the kind of result that it wants. -/
inductive Fits (h : Heap) : ResultKind → Value → CallResult → Prop where
  | integer {v : Value} {k : Int64} (worth : Worth v k) : Fits h .integer v (.integer k)
  | text (s : ByteArray) : Fits h .text (.str s) (.text (Text.decode s))
  | handle {s : ByteArray} {p : Handle} (resolved : Handle.parse? (Text.decode s) = some p) :
    Fits h .handle (.str s) (.handle p)
  | table (r : Lua.TableRef) :
    Fits h .table (.table r) (.table (Exchange.toHostTable (h.table r) .text .text))

namespace Coercion

private theorem integer?_float {x : Binary64} {k : Int64} :
    integer? (.float x) = some k ↔ Worth (.float x) k ∧ ¬IsLeast (.float x) := by
  have limit : Nat.pow 2 63 = 9223372036854775808 := by decide
  simp only [integer?, Option.map_eq_some_iff, Option.filter_eq_some_iff,
    Binary64.toInt?_eq_some_iff, decide_eq_true_eq, limit]
  constructor
  · -- The limit is on the magnitude, so it leaves the least integer out.
    rintro ⟨i, ⟨⟨finite, value⟩, small⟩, rfl⟩
    have same : (Int64.ofInt i).toInt = i := Int64.toInt_ofInt_of_le (by omega) (by omega)
    refine ⟨.float finite (same.symm ▸ value), fun least => ?_⟩
    have lowest : i = -2 ^ 63 := by exact_mod_cast value.symm.trans least.2
    omega
  · rintro ⟨worth, above⟩
    cases worth with
    | float finite value =>
      have low := k.le_toInt
      have high := k.toInt_lt
      have least : k.toInt ≠ -2 ^ 63 := by
        intro lowest
        refine above ⟨finite, ?_⟩
        rw [value, lowest]
        norm_num
      exact ⟨k.toInt, ⟨⟨finite, value⟩, by omega⟩, k.ofInt_toInt⟩

private theorem integer?_eq_some_iff {v : Value} {k : Int64} :
    integer? v = some k ↔ Worth v k ∧ ¬IsLeast v := by
  cases v with
  | float x => exact integer?_float
  | int i =>
    constructor
    · rintro ⟨⟩
      exact ⟨.int k, not_false⟩
    · rintro ⟨⟨⟩, -⟩
      rfl
  | bool b =>
    constructor
    · rintro ⟨⟩
      exact ⟨.bool b, not_false⟩
    · rintro ⟨⟨⟩, -⟩
      rfl
  | nil | str | table | closure | builtin | failure =>
    exact ⟨nofun, fun h => nomatch h.1⟩

private theorem ofValue_integer_iff {h : Heap} {v : Value} {r : CallResult} :
    ofValue h .integer v = .value r ↔ Fits h .integer v r ∧ ¬IsLeast v := by
  simp only [ofValue]
  constructor
  · intro taken
    cases read : integer? v with
    | none => simp [read] at taken
    | some k =>
      obtain rfl : .integer k = r := by simpa [read] using taken
      obtain ⟨worth, above⟩ := integer?_eq_some_iff.mp read
      exact ⟨.integer worth, above⟩
  · rintro ⟨⟨worth⟩, above⟩
    rw [integer?_eq_some_iff.mpr ⟨worth, above⟩]
    rfl

private theorem ofValue_eq_value_iff_of_ne {h : Heap} {kind : ResultKind} (other : kind ≠ .integer)
    {v : Value} {r : CallResult} : ofValue h kind v = .value r ↔ Fits h kind v r := by
  constructor
  · intro taken
    cases kind with
    | integer => exact absurd rfl other
    | ignored => cases taken
    | text =>
      cases v with
      | str s =>
        cases taken
        exact .text s
      | _ => cases taken
    | table =>
      cases v with
      | table ref =>
        cases taken
        exact .table ref
      | _ => cases taken
    | handle =>
      cases v with
      | str s =>
        simp only [ofValue, Exchange.text?] at taken
        cases resolved : Handle.parse? (Text.decode s) with
        | none => simp [resolved] at taken
        | some p =>
          obtain rfl : .handle p = r := by simpa [resolved] using taken
          exact .handle resolved
      | _ => cases taken
  · intro fits
    cases fits with
    | integer worth => exact absurd rfl other
    | text s => rfl
    | table ref => rfl
    | handle resolved => simp [ofValue, Exchange.text?, resolved]

/-- A value is taken over as what fits, but for the float that is worth the least integer. -/
theorem ofValue_eq_value_iff {h : Heap} {kind : ResultKind} {v : Value} {r : CallResult} :
    ofValue h kind v = .value r ↔ Fits h kind v r ∧ ¬(kind = .integer ∧ IsLeast v) := by
  by_cases integer : kind = .integer
  · subst integer
    simpa using ofValue_integer_iff
  · simpa [integer] using ofValue_eq_value_iff_of_ne integer

/-- The result of a call that a value comes to. -/
def result? : Coercion → Option CallResult
  | .value r => some r
  | .nothing | .misfit => none

/-- A value that could be taken over is the result. -/
theorem result?_eq_some_iff {c : Coercion} {r : CallResult} :
    c.result? = some r ↔ c = .value r := by
  cases c <;> simp [result?]

end Coercion

namespace Engine

/-! ### What is said about a call -/

/-- The message about a value that does not fit. -/
def misfitMessage (function : String) : String :=
  "function \"" ++ function ++ "\" must return a valid value"

/-- The message about a call without a result. -/
def failureMessage (function : String) : String := "error in function \"" ++ function ++ "\""

/-- The messages about a call that returned. -/
def complaints (function : String) (kind : ResultKind) : Coercion → List String
  | .value _ => []
  | .nothing => if kind = .ignored then [] else [failureMessage function]
  | .misfit => [misfitMessage function, failureMessage function]

/-- A call without a result that was wanted is complained about. -/
theorem failureMessage_mem_iff {h : Heap} {function : String} {kind : ResultKind} {v : Value} :
    failureMessage function ∈ complaints function kind (.ofValue h kind v) ↔
      kind ≠ .ignored ∧ (Coercion.ofValue h kind v).result? = none := by
  by_cases ignored : kind = .ignored
  · subst ignored
    simp [Coercion.ofValue, complaints]
  · cases Coercion.ofValue h kind v <;> simp [complaints, Coercion.result?, ignored]

/-! ### Calls that return -/

/-- The call of a function of a script, with the engine it leaves and its outcome. -/
def called (e : Engine) (s : Script) (function : String) (arguments : List Argument) :
    Engine × Outcome :=
  (e.lookUp s function).1.apply s.context (e.lookUp s function).2 arguments

/-- A registered script has a function that may be called with some arguments, and the call
returns. -/
structure Returns (e : Engine) (s : Script) (function : String) (arguments : List Argument)
    (vs : List Value) : Prop where
  registered : e.script? s.id = some s
  few : arguments.length ≤ maxArguments
  callable : Lua.Heap.isFunction (e.lookUp s function).2 = true
  returned : (e.called s function arguments).2 = .returned vs

/-- What comes of a value that a function returned. -/
theorem settleOutcome_returned (e : Engine) (context : ContextId) (kind : ResultKind)
    (function : String) (vs : List Value) :
    let coercion := Coercion.ofValue (e.heapOf context) kind (vs.head?.getD (.int 0))
    e.settleOutcome context kind function (.returned vs) =
      (e.updateCore (·.complainAll (if coercion = .misfit then [misfitMessage function] else [])),
        coercion.result?) := by
  simp only [settleOutcome]
  cases Coercion.ofValue (e.heapOf context) kind (vs.head?.getD (.int 0)) <;> rfl

/-- A missing result is the last thing that is complained about. -/
theorem complaints_eq (h : Heap) (function : String) (kind : ResultKind) (v : Value) :
    let coercion := Coercion.ofValue h kind v
    complaints function kind coercion =
      (if coercion = .misfit then [misfitMessage function] else []) ++
        (if kind ≠ .ignored ∧ coercion.result?.isNone then [failureMessage function] else []) := by
  by_cases ignored : kind = .ignored
  · subst ignored
    rfl
  · intro coercion
    cases coercion <;> simp [complaints, Coercion.result?, ignored]

private theorem complain_settleOutcome (e : Engine) (context : ContextId) (kind : ResultKind)
    (function : String) (vs : List Value) :
    let coercion := Coercion.ofValue (e.heapOf context) kind (vs.head?.getD (.int 0))
    let settled := e.settleOutcome context kind function (.returned vs)
    (if kind ≠ .ignored ∧ settled.2.isNone then
      settled.1.updateCore (·.complain (failureMessage function)) else settled.1) =
      e.updateCore (·.complainAll (complaints function kind coercion)) := by
  intro coercion settled
  have outcome : settled = _ := settleOutcome_returned e context kind function vs
  rw [outcome]
  by_cases missing : kind ≠ .ignored ∧ coercion.result?.isNone
  · rw [if_pos missing, complaints_eq, if_pos missing]
    simp only [Core.complainAll, List.foldl_append]
    rfl
  · rw [if_neg missing, complaints_eq, if_neg missing, List.append_nil]

private theorem invokeActive_of_returned {e e₀ e₁ : Engine} {context : ContextId} {f : Value}
    {vs : List Value} {function : String} {arguments : List Argument}
    (found : e.global context function = (e₀, f)) (callable : Lua.Heap.isFunction f = true)
    (returned : e₀.apply context f arguments = (e₁, .returned vs)) (kind : ResultKind) :
    let coercion := Coercion.ofValue (e₁.heapOf context) kind (vs.head?.getD (.int 0))
    e.invokeActive context kind function arguments =
      (e₁.updateCore fun c => c.flush.complainAll (complaints function kind coercion),
        coercion.result?) := by
  intro coercion
  have outcome : ((e₁.updateCore Core.flush).settleOutcome context kind function
      (.returned vs)).2 = coercion.result? :=
    congrArg Prod.snd (settleOutcome_returned (e₁.updateCore Core.flush) context kind function vs)
  have complained := complain_settleOutcome (e₁.updateCore Core.flush) context kind function vs
  have flushed (messages : List String) :
      ((e₁.updateCore Core.flush).updateCore (·.complainAll messages)).updateCore Core.flush =
        e₁.updateCore fun c => c.flush.complainAll messages :=
    congrArg (fun core => { e₁ with core }) (e₁.core.flush_complainAll_flush messages)
  simp only [invokeActive, found, callable, returned, Bool.not_true, Bool.false_eq_true, if_false]
  generalize (e₁.updateCore Core.flush).settleOutcome context kind function (.returned vs) =
    settled at outcome complained ⊢
  exact Prod.ext ((congrArg (·.updateCore Core.flush) complained).trans (flushed _)) outcome

/-- What a call that returned comes to. -/
theorem invoke_of_returns {e : Engine} {s : Script} {function : String} {arguments : List Argument}
    {vs : List Value} (h : e.Returns s function arguments vs) (kind : ResultKind) :
    let called := (e.called s function arguments).1
    let coercion := Coercion.ofValue (called.heapOf s.context) kind (vs.head?.getD (.int 0))
    e.invoke s.id kind function arguments =
      ((called.updateCore fun c =>
          c.flush.complainAll (complaints function kind coercion)).updateCore
        (·.restore e.core.active), coercion.result?) := by
  have found : (e.updateCore (·.activate (some s.id))).global s.context function =
      ((e.lookUp s function).1, (e.lookUp s function).2) := rfl
  have returned : (e.lookUp s function).1.apply s.context (e.lookUp s function).2 arguments =
      ((e.called s function arguments).1, .returned vs) := Prod.ext rfl h.returned
  have active := invokeActive_of_returned found h.callable returned kind
  simp only [invoke, if_neg (Nat.not_lt.mpr h.few), h.registered, active]

/-- A call that returns has a result just if the first value that it returns (0 if there is none)
fits the kind of result; only the float that is worth the least integer of 64 bits is not taken over
as an integer. A result that is wanted and missing is complained about behind what the script
printed. -/
theorem results_coerced {e : Engine} {s : Script} {function : String} {arguments : List Argument}
    {vs : List Value} (h : e.Returns s function arguments vs) (kind : ResultKind) :
    let called := (e.called s function arguments).1
    let v := vs.head?.getD (.int 0)
    let after := e.invoke s.id kind function arguments
    (∀ r, after.2 = some r ↔
      Fits (called.heapOf s.context) kind v r ∧ ¬(kind = .integer ∧ IsLeast v)) ∧
      ∃ messages : List String,
        after.1.core.events =
          called.core.flush.events ++ (messages.map Core.complaint).toArray ∧
        (failureMessage function ∈ messages ↔ kind ≠ .ignored ∧ after.2 = none) := by
  intro called v after
  have outcome : after = _ := invoke_of_returns h kind
  rw [outcome]
  refine ⟨fun r => Coercion.result?_eq_some_iff.trans Coercion.ofValue_eq_value_iff,
    complaints function kind (.ofValue (called.heapOf s.context) kind v), ?_,
    failureMessage_mem_iff⟩
  exact Core.events_complainAll _ _

/-- A script with a function that returns a truth value and one that returns the least integer of
64 bits as a float. -/
def answering : Engine := bare.perform (.load "s.lua" (some
  "weechat.register('s', '', '', '', '', '', '')
function yes() return true end
function least() return -9223372036854775808.0 end"))

/-- The script of `answering`. -/
def answerer : Script := ⟨⟨1⟩, "s.lua", ⟨"s", "", "", "", "", "", ""⟩, ⟨1⟩, true⟩

/-- The float that is worth the least integer of 64 bits. -/
def leastFloat : Binary64 := ⟨0xC3E0000000000000⟩

set_option maxRecDepth 100000 in
/-- The case of a truth value that is asked for as an integer. -/
theorem results_coerced_answering :
    (answering.invoke ⟨1⟩ .integer "yes" []).2 = some (.integer 1) := by
  obtain ⟨registered, callable, returned⟩ :
      answering.script? ⟨1⟩ = some answerer ∧
        Lua.Heap.isFunction (answering.lookUp answerer "yes").2 = true ∧
        (answering.called answerer "yes" []).2 = .returned [.bool true] := by decide +kernel
  have returns : answering.Returns answerer "yes" [] [.bool true] :=
    ⟨registered, by decide, callable, returned⟩
  exact ((results_coerced returns .integer).1 _).mpr ⟨.integer (.bool true), fun least => least.2⟩

private theorem worth_leastFloat : Worth (.float leastFloat) Int64.minValue := by
  refine .float (by decide) ?_
  have negative : leastFloat.isNegative = true := by decide
  have mantissa : leastFloat.mantissa = 2 ^ 52 := by decide
  have exponent : leastFloat.exponent = 11 := by decide
  rw [Binary64.value, negative, mantissa, exponent, Int64.toInt_minValue]
  norm_num

set_option maxRecDepth 100000 in
/-- The float has an integer value within 64 bits, and yet the call has no result. -/
theorem least_integer_refused :
    Worth (.float leastFloat) Int64.minValue ∧
      answering.Returns answerer "least" [] [.float leastFloat] ∧
      (answering.invoke ⟨1⟩ .integer "least" []).2 = none ∧
      (answering.invoke ⟨1⟩ .integer "least" []).1.core.events.back? =
        some (.print none "=!= lua: error in function \"least\"") := by
  obtain ⟨registered, callable, returned, result, said⟩ :
      answering.script? ⟨1⟩ = some answerer ∧
        Lua.Heap.isFunction (answering.lookUp answerer "least").2 = true ∧
        (answering.called answerer "least" []).2 = .returned [.float leastFloat] ∧
        (answering.invoke ⟨1⟩ .integer "least" []).2 = none ∧
        (answering.invoke ⟨1⟩ .integer "least" []).1.core.events.back? =
          some (.print none "=!= lua: error in function \"least\"") := by decide +kernel
  exact ⟨worth_leastFloat, ⟨registered, by decide, callable, returned⟩, result, said⟩

end Engine

end LuaHost
