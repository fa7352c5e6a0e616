import LuaHost.Registration
import LuaHost.Lua.Arithmetic
import LuaHost.Lua.ChunkName
import LuaHost.Lua.Heap

/-!
# States of the machine that runs Lua

A state is the heap, what is to be done next, and a stack of frames that wait for it. Nothing
of a running script is hidden elsewhere: a call into the host is an explicit request, so
whatever holds of one step and of one answered request holds of every run.
-/

namespace LuaHost.Lua

/-- What a script asks of its host. -/
inductive HostCall where
  /-- Append text to the captured output. -/
  | write (text : String)
  /-- Register the script that is being loaded. -/
  | register (r : Registration)
  /-- Send a signal. -/
  | sendSignal (name data : String)

/-- The host's answer. -/
inductive Reply where
  | done
  | accepted (b : Bool)
  | status (code : Int64)

/-- The values that a script gets for an answer. -/
def Reply.values : Reply → List Value
  | .done => []
  | .accepted b => [.bool b]
  | .status code => [.int code]

/-- How an expression that holds a wrong value is named in a message: the kind of variable and
its name. -/
structure Mention where
  kind : String
  name : List UInt8

/-- A mention as it stands in a message. -/
def Mention.text (m : Mention) : List UInt8 :=
  ascii s!" ({m.kind} '" ++ m.name ++ ascii "')"

/-- Where a function was called: the place in a chunk unless the host or the library called it,
and how the function was named there. -/
structure Site where
  place : Option (List UInt8 × Nat)
  callee : Option Mention

/-- A call by the host or the library. -/
def Site.outside : Site := ⟨none, none⟩

/-- The place of a call in front of a message. -/
def Site.position (s : Site) : List UInt8 :=
  match s.place with
  | some (chunk, line) => chunk ++ ascii s!":{line}: "
  | none => []

/-- What the code of one function can see. -/
structure Env where
  /-- Variables of the function, the latest first. -/
  locals : List (Name × VariableRef)
  /-- Variables that the function keeps hold of. -/
  captured : List (Name × VariableRef)
  /-- The extra arguments. -/
  extra : List Value
  /-- The shown name of the chunk. -/
  chunk : List UInt8

namespace Env

/-- The variable a name stands for, unless it is global. -/
def find? (env : Env) (x : Name) : Option VariableRef :=
  match env.locals.lookup x with
  | some r => some r
  | none => env.captured.lookup x

/-- Declare a variable. -/
def bind (env : Env) (x : Name) (r : VariableRef) : Env :=
  { env with locals := (x, r) :: env.locals }

/-- A call on a line. -/
def site (env : Env) (line : Nat) (callee : Option Mention) : Site :=
  ⟨some (env.chunk, line), callee⟩

end Env

/-- A place that a value can be assigned to. -/
inductive Slot where
  | variable (r : VariableRef)
  | field (object key : Value) (mention : Option Mention)

/-- What the values of a list of expressions are wanted for. -/
inductive Goal where
  | call (line : Nat) (mention : Option Mention) (f : Value) (first : List Value)
  | locals (names : List Name) (rest : List Stmt)
  | assign (line : Nat) (slots : List Slot)
  | give
  | count (line : Nat) (x : Name) (body : List Stmt)
  | each (line : Nat) (names : List Name) (body : List Stmt)

/-- What a waiting frame does with the outcome it waits for. -/
inductive Frame where
  /-- Keep the first value. -/
  | first
  /-- Drop the values of a statement. -/
  | discard
  | unary (line : Nat) (op : UnaryOp) (operand : Expr) (env : Env)
  | left (line : Nat) (op : BinaryOp) (left right : Expr) (env : Env)
  | right (line : Nat) (op : BinaryOp) (left right : Expr) (env : Env) (v : Value)
  | both (right : Expr) (env : Env)
  | either (right : Expr) (env : Env)
  | indexed (line : Nat) (object key : Expr) (env : Env)
  | key (line : Nat) (object : Expr) (env : Env) (o : Value)
  | callee (line : Nat) (callee : Expr) (arguments : List Expr) (env : Env)
  | receiver (line : Nat) (object : Expr) (x : Name) (arguments : List Expr) (env : Env)
  | method (line : Nat) (x : Name) (arguments : List Expr) (env : Env) (o : Value)
  | list (done : List Value) (rest : List Expr) (env : Env) (goal : Goal)
  /-- A table constructor: the items read so far in reverse, and the fields left. -/
  | item (line : Nat) (r : TableRef) (items : List Value) (rest : List Field) (env : Env)
  | fieldKey (line : Nat) (r : TableRef) (items : List Value) (value : Expr) (rest : List Field)
      (env : Env)
  | fieldValue (line : Nat) (r : TableRef) (items : List Value) (key : Value) (rest : List Field)
      (env : Env)
  | rest (statements : List Stmt) (env : Env)
  | branch (yes no : List Stmt) (env : Env)
  | test (condition : Expr) (body : List Stmt) (env : Env)
  | looping (condition : Expr) (body : List Stmt) (env : Env)
  | counting (x : Name) (body : List Stmt) (env : Env) (counter : Counter)
  | iterating (line : Nat) (names : List Name) (body : List Stmt) (env : Env) (f s : Value)
  | eachDone (line : Nat) (names : List Name) (body : List Stmt) (env : Env) (f s control : Value)
  /-- The object of a target of an assignment is awaited. -/
  | targetObject (line : Nat) (object key : Expr) (done : List Slot) (targets values : List Expr)
      (env : Env)
  | targetKey (line : Nat) (object : Expr) (o : Value) (done : List Slot)
      (targets values : List Expr) (env : Env)
  /-- Values that are still to be stored, after one that a function stores. -/
  | stores (line : Nat) (rest : List (Slot × Value)) (env : Env)
  /-- The result of a call is the result of the function. -/
  | tail
  /-- A function that runs, and where it was called. -/
  | activation (site : Site)
  /-- A protected call. -/
  | guarded (site : Site)
  /-- The text of a value is awaited. -/
  | asText
  /-- The text of a value that is printed is awaited; the texts before it are in reverse. -/
  | printing (done : List String) (rest : List Value)
  /-- A finalizer runs, and these are left. -/
  | finalizing (rest : List TableRef)
  /-- The host waits for the outcome. -/
  | report
  /-- The host waits for the text of a failure. -/
  | reportText

/-- What is to be done next. -/
inductive Control where
  | eval (e : Expr) (env : Env)
  | exec (statements : List Stmt) (env : Env)
  | values (vs : List Value)
  /-- A statement is finished. -/
  | proceed
  /-- The innermost loop is left. -/
  | leaving
  /-- The function is left with its results. -/
  | giving (vs : List Value)
  | call (f : Value) (arguments : List Value) (site : Site)
  | raising (v : Value)
  | printing (done : List String) (rest : List Value)
  | finalizing (rest : List TableRef)

/-- A state of the machine. `depth` counts the functions that run. -/
structure Machine where
  heap : Heap
  control : Control
  stack : List Frame
  depth : Nat

/-- How a run ended: with values, or with a failure as the host shows it. -/
inductive Outcome where
  | returned (vs : List Value)
  | raised (message : String)
  deriving DecidableEq

/-- What one step comes to. -/
inductive Step where
  | running (m : Machine)
  /-- The host is asked; the machine goes on with the answer as values. -/
  | asking (call : HostCall) (m : Machine)
  | finished (heap : Heap) (outcome : Outcome)

/-- Go on with other values or another task. -/
def Machine.resume (m : Machine) (reply : Reply) : Machine :=
  { m with control := .values reply.values }

end LuaHost.Lua
