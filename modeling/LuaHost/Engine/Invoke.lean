import LuaHost.Engine.Context

/-!
# Calling functions of scripts

The host calls a function of a script by its name. Arguments become values of the script, and
the first result is taken over as the kind of value that the host wants, or not at all.
-/

namespace LuaHost

/-- The kind of result that the host wants of a call. -/
inductive ResultKind where
  | text
  | handle
  | integer
  | table
  /-- The result is not wanted. -/
  | ignored
  deriving DecidableEq

/-- An argument that the host passes. -/
inductive Argument where
  | text (s : String)
  | integer (i : Int64)
  /-- A handle reaches the script as its text. -/
  | handle (h : Handle)
  | table (t : HostTable)
  deriving DecidableEq

/-- A result that the host takes over. -/
inductive CallResult where
  | text (s : String)
  | handle (h : Handle)
  | integer (i : Int64)
  | table (t : HostTable)
  deriving DecidableEq

/-- What becomes of a value that a script returned. -/
inductive Coercion where
  | value (r : CallResult)
  /-- There is no result, and none is missed. -/
  | nothing
  /-- The value does not fit the kind of result. -/
  | misfit
  deriving DecidableEq

namespace Coercion

/-- A value is an integer: one of the language, a truth value, or a float that is worth an
integer of a magnitude below 2^63. -/
def integer? : Lua.Value → Option Int64
  | .int i => some i
  | .float x => (x.toInt?.filter fun i => i.natAbs < Nat.pow 2 63).map Int64.ofInt
  | .bool b => some (if b then 1 else 0)
  | _ => none

/-- Take a value over as a kind of result. -/
def ofValue (h : Lua.Heap) (kind : ResultKind) (v : Lua.Value) : Coercion :=
  match kind with
  | .ignored => .nothing
  | .text => ((Exchange.text? v).map fun s => .value (.text s)).getD .misfit
  | .handle =>
    match Exchange.text? v with
    | some s => ((Handle.parse? s).map fun p => .value (.handle p)).getD .nothing
    | none => .misfit
  | .integer => ((integer? v).map fun i => .value (.integer i)).getD .misfit
  | .table =>
    match v with
    | .table r => .value (.table (Exchange.toHostTable (h.table r) .text .text))
    | _ => .misfit

end Coercion

namespace Engine

/-- The greatest number of arguments of a call. -/
def maxArguments : Nat := 16

/-- The value that an argument becomes in an interpreter state. -/
def ofArgument (h : Lua.Heap) : Argument → Lua.Value × Lua.Heap
  | .text s => (.text s, h)
  | .integer i => (.int i, h)
  | .handle p => (.text p.text, h)
  | .table t =>
    let (r, h) := h.newTable (Exchange.ofHostTable t)
    (.table r, h)

/-- The values that arguments become, in their order. -/
def ofArguments (h : Lua.Heap) : List Argument → List Lua.Value × Lua.Heap
  | [] => ([], h)
  | a :: rest =>
    let (v, h) := ofArgument h a
    let (vs, h) := ofArguments h rest
    (v :: vs, h)

/-- The value of a global, which a metamethod of the globals may give. -/
def global (e : Engine) (context : ContextId) (name : String) : Engine × Lua.Value :=
  let h := e.heapOf context
  match h.lookup (.text name) true Lua.Heap.chainLimit (.table h.globals) with
  | .found v => (e, v)
  | .handler f object =>
    match e.runIn context fun h => Lua.Interpreter.start h f [object, .text name] with
    | (e, .returned vs) => (e, vs.head?.getD .nil)
    | (e, .raised _) => (e, .nil)
  | .refused _ _ | .endless => (e, .nil)

/-- Run a function with arguments in a context. -/
def apply (e : Engine) (context : ContextId) (f : Lua.Value) (arguments : List Argument) :
    Engine × Lua.Outcome :=
  e.runIn context fun h =>
    let (vs, h) := ofArguments h arguments
    Lua.Interpreter.start h f vs

/-- Take the outcome of a call over. A function that returns nothing counts as returning 0. -/
def settleOutcome (e : Engine) (context : ContextId) (kind : ResultKind) (function : String) :
    Lua.Outcome → Engine × Option CallResult
  | .raised message => (e.updateCore (·.report message), none)
  | .returned vs =>
    match Coercion.ofValue (e.heapOf context) kind (vs.head?.getD (.int 0)) with
    | .value r => (e, some r)
    | .nothing => (e, none)
    | .misfit =>
      let complaint := "function \"" ++ function ++ "\" must return a valid value"
      (e.updateCore (·.complain complaint), none)

/-- Call a function of a script that is active already. -/
def invokeActive (e : Engine) (context : ContextId) (kind : ResultKind) (function : String)
    (arguments : List Argument) : Engine × Option CallResult :=
  let (e, f) := e.global context function
  if !Lua.Heap.isFunction f then
    (e.updateCore (·.complain ("unable to run function \"" ++ function ++ "\"")), none)
  else
    let (e, outcome) := e.apply context f arguments
    let (e, result) := (e.updateCore Core.flush).settleOutcome context kind function outcome
    let e :=
      if kind ≠ .ignored ∧ result.isNone then
        e.updateCore (·.complain ("error in function \"" ++ function ++ "\""))
      else e
    (e.updateCore Core.flush, result)

/-- Call a function of a script and take its first result over. The script is active during the
call, and the one that was active before it is so again afterwards. -/
def invoke (e : Engine) (script : ScriptId) (kind : ResultKind) (function : String)
    (arguments : List Argument) : Engine × Option CallResult :=
  if arguments.length > maxArguments then
    (e.updateCore (·.complain ("too many arguments (" ++ toString arguments.length ++
      ") for function \"" ++ function ++ "\" (max " ++ toString maxArguments ++ ")")), none)
  else match e.script? script with
    | none =>
      (e.updateCore (·.complain ("unable to run function \"" ++ function ++ "\" (script " ++
        script.text ++ " not loaded)")), none)
    | some s =>
      let (after, result) :=
        (e.updateCore (·.activate (some script))).invokeActive s.context kind function arguments
      (after.updateCore (·.restore e.core.active), result)

end Engine

end LuaHost
