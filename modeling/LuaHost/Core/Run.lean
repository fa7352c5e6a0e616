import LuaHost.Core.Answer
import LuaHost.Lua.Interpreter

/-!
# Running scripts

A machine runs until it is finished, and the engine answers what it asks for on the way. The
number of steps is limited; a run that reaches the limit ends in a failure that no script can
catch.
-/

namespace LuaHost.Core

/-- The failure of a run that takes too many steps. -/
def exhausted : String := "runtime error: too many steps" ++ Lua.traceHeading

/-- Run a machine for at most `budget` steps of a kind. -/
def runWith (step : Lua.Machine → Lua.Step) :
    (budget : Nat) → Core → Lua.Machine → Core × Lua.Heap × Lua.Outcome
  | 0, c, m => (c, m.heap, .raised exhausted)
  | budget + 1, c, m =>
    match step m with
    | .running m => runWith step budget c m
    | .asking call m =>
      let (c, reply) := c.answer call
      runWith step budget c (m.resume reply)
    | .finished heap outcome => (c, heap, outcome)

/-- Run a machine for at most `budget` steps. -/
def run (budget : Nat) (c : Core) (m : Lua.Machine) : Core × Lua.Heap × Lua.Outcome :=
  c.runWith Lua.Machine.step budget m

end LuaHost.Core
