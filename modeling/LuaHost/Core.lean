import LuaHost.Options
import LuaHost.Output
import LuaHost.Registry
import LuaHost.Timer

/-!
# What running scripts reach of the engine

The state that a script can read or change while it runs: the registry, the captured output,
the load in progress, the waiting requests. Everything the engine tells the host is kept in
order as a list of events.
-/

namespace LuaHost

/-- A load between the creation of its context and its end. -/
structure Loading where
  filename : String
  context : ContextId
  /-- The script that the load has registered. -/
  registered : Option ScriptId
  deriving DecidableEq

/-- The part of the engine that running scripts reach. -/
structure Core where
  registry : Registry
  /-- The script whose context is running. -/
  active : Option ScriptId
  output : Output
  loading : Option Loading
  /-- Messages that only inform are left out. -/
  quiet : Bool
  options : Options
  requests : RequestQueue
  timers : TimerQueue
  /-- The time, in milliseconds. -/
  clock : Nat
  /-- Number of contexts created so far. -/
  created : Nat
  /-- Number of contexts destroyed so far. -/
  destroyed : Nat
  /-- The license of the host. -/
  license : String
  /-- What was sent to the host. -/
  events : Array Event
  /-- The lines written to the log. -/
  log : Array String
  /-- The requests that arrived and the batches that were taken up, in order. -/
  notes : Array Note

namespace Core

/-- Nothing is loaded, printed or asked for. -/
def new (options : Options) (license : String) : Core :=
  { registry := .empty, active := none, output := .empty, loading := none, quiet := false, options,
    requests := .empty, timers := .empty, clock := 0, created := 0, destroyed := 0, license,
    events := #[], log := #[], notes := #[] }

/-- Send something to the host. -/
def emit (c : Core) (e : Event) : Core := { c with events := c.events.push e }

/-- Note something down about deferred requests. -/
def note (c : Core) (n : Note) : Core := { c with notes := c.notes.push n }

/-- Print a line on the core buffer of the host. -/
def print (c : Core) (line : String) : Core := c.emit (.print none line)

/-- Print a message of the engine. -/
def say (c : Core) (message : String) : Core := c.print (engineName ++ ": " ++ message)

/-- Print an error of the engine. -/
def complain (c : Core) (message : String) : Core :=
  c.print (errorMark ++ engineName ++ ": " ++ message)

/-- Whether messages that only inform are shown. -/
def isVerbose (c : Core) : Bool := !c.quiet || c.options.debug ≥ 2

/-- Print a message that only informs. -/
def inform (c : Core) (message : String) : Core := if c.isVerbose then c.say message else c

/-- The name of the script that is running. -/
def activeName? (c : Core) : Option String :=
  (c.active.bind c.registry.get?).map Script.name

/-- Deliver the captured output to the host. -/
def flush (c : Core) : Core :=
  match c.output.takeDelivery c.activeName? with
  | (none, _) => c
  | (some d, output) => { c with output }.emit d.event

/-- A delivery changes the captured output and adds to the events. -/
theorem flush_eq (c : Core) :
    c.flush = { c with output := c.flush.output, events := c.flush.events } := by
  unfold flush
  split <;> rfl

/-- Append text to the captured output without delivering it. -/
def push (c : Core) (text : String) : Core := { c with output := c.output.push text }

/-- Append the text of a script to the captured output, delivering every line that ends. -/
def write (c : Core) (text : String) : Core :=
  let (lines, rest) := Text.splitLines text.toList
  (lines.foldl (fun c line => (c.push (String.ofList line)).flush) c).push (String.ofList rest)

/-- Writing changes the captured output and adds to the events. -/
theorem write_eq (c : Core) (text : String) :
    c.write text = { c with output := (c.write text).output, events := (c.write text).events } := by
  have lines (ls : List (List Char)) (c : Core) :
      let after := ls.foldl (fun c line => (c.push (String.ofList line)).flush) c
      after = { c with output := after.output, events := after.events } := by
    induction ls generalizing c with
    | nil => rfl
    | cons l ls ih =>
      have first := flush_eq (c.push (String.ofList l))
      have rest := ih (c.push (String.ofList l)).flush
      simp only [List.foldl_cons]
      rw [rest, first]
      rfl
  have h := lines (Text.splitLines text.toList).1 c
  simp only [write]
  rw [h]
  rfl

/-- Print a failure of a script as the script itself would have printed it. -/
def report (c : Core) (failure : String) : Core := c.write (failure ++ "\n")

/-- Make a script active, or none. -/
def activate (c : Core) (script : Option ScriptId) : Core := { c with active := script }

/-- Make the script active again that was active before, unless it is gone. -/
def restore (c : Core) (previous : Option ScriptId) : Core :=
  c.activate (previous.filter c.registry.contains)

/-- The number of contexts that are not destroyed. -/
def live (c : Core) : Nat := c.created - c.destroyed

end Core

end LuaHost
