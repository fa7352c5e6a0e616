import LuaHost.Handle
import LuaHost.Directive
import LuaHost.Text.Pieces

/-!
# Captured output and where it goes

Everything scripts print lands in one buffer, which is flushed at every line end: to the core
buffer of the host under the name of the script, or to the destination of the evaluation in
progress. An evaluation without a destination keeps what is printed.
-/

namespace LuaHost

/-- Who has a signal sent. -/
inductive Sender where
  | engine
  | script
  deriving DecidableEq

/-- A call the engine makes into the host application. -/
inductive Event where
  /-- A line printed on a buffer, or on the core buffer. -/
  | print (buffer : Option Handle) (line : String)
  /-- Text sent to a buffer as if the user had typed it. -/
  | command (buffer : Handle) (text : String)
  /-- A signal sent on the bus of the host, by the engine itself or for a script. The host is not
  told which. -/
  | signal {sender : Sender} (name data : String)
  /-- The buffers of a freshly loaded script are attached to its functions again. -/
  | callbacks (script : String)
  deriving DecidableEq

/-- What stands in front of an error line. -/
def errorMark : String := "=!= "

/-- The name of the engine in front of its messages. -/
def engineName : String := "lua"

/-- Where the output of one evaluation goes: to a buffer or nowhere, as lines or as input,
and as input with or without commands. -/
structure Evaluation where
  buffer : Option Handle
  sendInput : Bool
  execCommands : Bool
  deriving DecidableEq

/-- Text taken out of the buffer, ready for the host. -/
inductive Delivery where
  /-- Input for a buffer. -/
  | input (buffer : Handle) (text : String) (execCommands : Bool)
  /-- A line for a buffer. -/
  | print (buffer : Handle) (text : String)
  /-- A line for the core buffer, under the name of a script if one is active. -/
  | log (script : Option String) (text : String)
  deriving DecidableEq

/-- The text that is sent for a line of input: a command is sent as it is when commands may be
executed, and as the text it shows otherwise. -/
def Delivery.inputText (text : String) (execCommands : Bool) : String :=
  if execCommands then text
  else if (Directive.plain? text).isSome then text
  else Directive.escape text

/-- The call that hands a delivery to the host. -/
def Delivery.event : Delivery → Event
  | .input buffer text execCommands => .command buffer (inputText text execCommands)
  | .print buffer text => .print (some buffer) text
  | .log script text =>
    .print none (engineName ++ ": stdout/stderr (" ++ script.getD "?" ++ "): " ++ text)

/-- The output buffer and the evaluation in progress. -/
structure Output where
  buffer : String
  evaluation : Option Evaluation
  deriving DecidableEq

namespace Output

/-- Nothing was printed and no evaluation is in progress. -/
def empty : Output := ⟨"", none⟩

/-- Append text without flushing. -/
def push (o : Output) (text : String) : Output := { o with buffer := o.buffer ++ text }

/-- Take what the buffer holds, leaving it empty. -/
def takeBuffer (o : Output) : String × Output := (o.buffer, { o with buffer := "" })

/-- Output is being kept: an evaluation without a destination is in progress. -/
def isCapturing (o : Output) : Bool :=
  match o.evaluation with
  | some e => e.buffer.isNone
  | none => false

/-- How the buffered text is handed over while `script` is active, if it is. -/
def delivery? (o : Output) (script : Option String) : Option Delivery :=
  if o.buffer.isEmpty then none
  else match o.evaluation with
    | none => some (.log script o.buffer)
    | some e => e.buffer.map fun b =>
        if e.sendInput then .input b o.buffer e.execCommands else .print b o.buffer

/-- Take the buffered text for delivery; it stays when there is none to hand over. -/
def takeDelivery (o : Output) (script : Option String) : Option Delivery × Output :=
  match o.delivery? script with
  | none => (none, o)
  | some d => (some d, { o with buffer := "" })

end Output

end LuaHost
