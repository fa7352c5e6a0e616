import LuaHost.Engine
import LuaHost.Exchange

/-!
# Interpreter contexts

Every script runs in a context of its own. Before a context is destroyed it is released: what
the script defined is unset and garbage is collected twice, so that finalizers run while they
can still print. What is left then, such as objects that library tables hold, is finalized when the
interpreter state is closed; there it can hardly print any more.
-/

namespace LuaHost.Engine

open Lua (Heap Machine Outcome Interpreter.fresh)

/-- The interpreter state of a context. -/
def heapOf (e : Engine) (context : ContextId) : Heap :=
  (e.contexts.lookup context).getD Interpreter.fresh

/-- Put another interpreter state in the place of that of a context. -/
def setHeap (e : Engine) (context : ContextId) (heap : Heap) : Engine :=
  { e with contexts := e.contexts.map fun (c, h) => if c = context then (c, heap) else (c, h) }

/-- Create a context with a fresh interpreter state. -/
def createContext (e : Engine) : Engine × ContextId :=
  let context : ContextId := ⟨e.core.created + 1⟩
  ({ e with
      core := { e.core with created := e.core.created + 1 }
      contexts := e.contexts ++ [(context, Interpreter.fresh)] }, context)

/-- Run a machine that is set up in the interpreter state of a context, by steps of a kind. -/
def runInWith (step : Machine → Lua.Step) (e : Engine) (context : ContextId)
    (setUp : Heap → Machine) : Engine × Outcome :=
  let (core, heap, outcome) := e.core.runWith step e.budget (setUp (e.heapOf context))
  ({ e with core }.setHeap context heap, outcome)

/-- Run a machine that is set up in the interpreter state of a context. -/
def runIn (e : Engine) (context : ContextId) (setUp : Heap → Machine) : Engine × Outcome :=
  e.runInWith Machine.step context setUp

/-- The names of the globals that are there before a script runs. -/
def builtinNames : List String :=
  ((Interpreter.fresh.table Interpreter.fresh.globals).fields.map Prod.fst).filterMap
    Exchange.text?

/-- Whether the key of a global is the name of one that is there before a script runs. -/
def isBuiltinKey (key : Lua.Value) : Bool :=
  match Exchange.text? key with
  | some name => builtinNames.contains name
  | none => false

/-- Unset every global that the script defined. -/
def forget (h : Heap) : Heap :=
  h.modifyTable h.globals fun t => { t with fields := t.fields.filter (isBuiltinKey ·.1) }

/-- Unset what the script defined and run the finalizers of what is garbage then. The second
collection finds what the finalizers let go of. -/
def release (e : Engine) (context : ContextId) : Engine :=
  let e := e.setHeap context (forget (e.heapOf context))
  let e := (e.runIn context Lua.Interpreter.collecting).1
  (e.runIn context Lua.Interpreter.collecting).1

/-- Close the interpreter state of a context: garbage is collected for the last time, and then
everything that is left is finalized. -/
def closeState (e : Engine) (context : ContextId) : Engine :=
  let e := (e.runIn context Lua.Interpreter.collecting).1
  (e.runInWith Machine.closingStep context Lua.Interpreter.closing).1

/-- Let go of a context. -/
def dropContext (e : Engine) (context : ContextId) : Engine :=
  { e with
    core := { e.core with destroyed := e.core.destroyed + 1 }
    contexts := e.contexts.filter (·.1 ≠ context) }

/-- Release a context and destroy it. What is printed while its state is closed is not
delivered. -/
def destroyContext (e : Engine) (context : ContextId) : Engine :=
  (((e.release context).updateCore Core.flush).closeState context).dropContext context

end LuaHost.Engine
