import LuaHost.Lua.Library

/-!
# One step of the machine

Each control has one successor. Expressions and statements push the frame that waits for a part
of them; outcomes are handed to the top frame. Loops, returns and failures unwind the stack
frame by frame, up to the frame that stops them.
-/

namespace LuaHost.Lua

/-- How an expression is mentioned when its value is a wrong operand. -/
def mention? (env : Env) : Expr → Option Mention
  | .name _ x =>
    if (env.locals.lookup x).isSome then some ⟨"local", ascii x⟩
    else if (env.captured.lookup x).isSome then some ⟨"upvalue", ascii x⟩
    else some ⟨"global", ascii x⟩
  | .index _ object key =>
    match key with
    | .str s =>
      match object with
      | .name _ "_ENV" => some ⟨"global", s.data.toList⟩
      | _ => some ⟨"field", s.data.toList⟩
    | .int i => some ⟨"field", ascii (if 0 ≤ i ∧ i ≤ 255 then "integer index" else "?")⟩
    | _ => some ⟨"field", ascii "?"⟩
  | .str s => some ⟨"constant", s.data.toList⟩
  | .group e => mention? env e
  | _ => none

/-- Whether an expression is a call, whose results become those of the function that returns it. -/
def Expr.isCall : Expr → Bool
  | .call .. | .method .. => true
  | _ => false

/-- The first of some values. -/
def firstOf (vs : List Value) : Value := vs.head?.getD .nil

/-- As many values as there are names, missing ones `nil`. -/
def adjust : Nat → List Value → List Value
  | 0, _ => []
  | n + 1, [] => .nil :: adjust n []
  | n + 1, v :: vs => v :: adjust n vs

namespace Machine

/-- Raise a message with a place in front. -/
def raiseAt (chunk : List UInt8) (line : Nat) (message : List UInt8) : Control :=
  .raising (.str ⟨(placeText chunk line ++ message).toArray⟩)

/-- Raise that a value is of the wrong type for an operation. -/
def raiseType (env : Env) (line : Nat) (what : String) (v : Value) (m : Option Mention) : Control :=
  raiseAt env.chunk line
    (ascii s!"attempt to {what} a {v.typeName} value" ++ (m.map Mention.text).getD [])

/-- Raise that two values cannot be compared. -/
def raiseOrder (env : Env) (line : Nat) (v w : Value) : Control :=
  raiseAt env.chunk line
    (if v.typeName = w.typeName then ascii s!"attempt to compare two {v.typeName} values"
      else ascii s!"attempt to compare {v.typeName} with {w.typeName}")

/-- Go on with another task. -/
def goto (m : Machine) (c : Control) : Step := .running { m with control := c }

/-- Go on with a task that a new frame waits for. -/
def push (m : Machine) (f : Frame) (c : Control) : Step :=
  .running { m with control := c, stack := f :: m.stack }

/-- Index a value. -/
def index (m : Machine) (env : Env) (line : Nat) (o k : Value) (mention : Option Mention) : Step :=
  match m.heap.lookup k true Heap.chainLimit o with
  | .found v => m.goto (.values [v])
  | .handler f object =>
    m.push .first (.call f [object, k] (env.site line (some ⟨"metamethod", ascii "index"⟩)))
  | .refused object direct =>
    m.goto (raiseType env line "index" object (if direct then mention else none))
  | .endless => m.goto (raiseAt env.chunk line (ascii "'__index' chain too long; possibly a loop"))

/-- Why a value cannot be the key of a field. -/
def keyFault? : Value → Option String
  | .nil => some "table index is nil"
  | .float x => if x.isNaN then some "table index is NaN" else none
  | _ => none

/-- Store values in their places one after the other. -/
def storeAll (m : Machine) (env : Env) (line : Nat) : List (Slot × Value) → Step
  | [] => m.goto .proceed
  | (.variable r, v) :: rest => storeAll { m with heap := m.heap.setVariable r v } env line rest
  | (.field o k mention, v) :: rest =>
    match m.heap.store k true Heap.chainLimit o with
    | .into r =>
      match keyFault? k with
      | some fault => m.goto (raiseAt env.chunk line (ascii fault))
      | none => storeAll { m with heap := m.heap.rawSet r k v } env line rest
    | .handler f object =>
      m.push (.stores line rest env)
        (.call f [object, k, v] (env.site line (some ⟨"metamethod", ascii "newindex"⟩)))
    | .refused object direct =>
      m.goto (raiseType env line "index" object (if direct then mention else none))
    | .endless =>
      m.goto (raiseAt env.chunk line (ascii "'__newindex' chain too long; possibly a loop"))

/-- Declare variables with values. -/
def bindAll (h : Heap) (env : Env) : List Name → List Value → Heap × Env
  | [], _ => (h, env)
  | x :: xs, vs =>
    let (r, h) := h.newVariable (firstOf vs)
    bindAll h (env.bind x r) xs vs.tail

/-- Go on with the value of a name. -/
def readName (m : Machine) (env : Env) (line : Nat) (x : Name) : Step :=
  match env.find? x with
  | some r => m.goto (.values [m.heap.valueOf r])
  | none =>
    let globals := (env.find? "_ENV").elim .nil m.heap.valueOf
    m.index env line globals (.text x) (mention? env (.name line "_ENV"))

/-- The variables that a function keeps hold of: those of the names it uses, and the globals if
one of the names is global. -/
def captured (env : Env) (body : Body) : List (Name × VariableRef) :=
  let names := body.freeNames.eraseDups
  let names := if names.all fun x => (env.find? x).isSome then names else "_ENV" :: names
  names.eraseDups.filterMap fun x => (env.find? x).map (x, ·)

/-- Go on with the next field of a table constructor. -/
def fieldsNext (m : Machine) (line : Nat) (r : TableRef) (items : List Value) (env : Env) :
    List Field → Step
  | [] =>
    let store (h : Heap) (numbered : Value × Nat) : Heap :=
      h.rawSet r (.int (Int64.ofNat numbered.2)) numbered.1
    { m with heap := (items.reverse.zipIdx 1).foldl store m.heap }.goto (.values [.table r])
  | .item e :: rest => m.push (.item line r items rest env) (.eval e env)
  | .entry key value :: rest => m.push (.fieldKey line r items value rest env) (.eval key env)

/-- Set a field of a table that is being constructed. -/
def setField (m : Machine) (line : Nat) (r : TableRef) (items : List Value) (k v : Value)
    (rest : List Field) (env : Env) : Step :=
  match keyFault? k with
  | some fault => m.goto (raiseAt env.chunk line (ascii fault))
  | none => { m with heap := m.heap.rawSet r k v }.fieldsNext line r items env rest

/-- Evaluate an expression. -/
def eval (m : Machine) (env : Env) : Expr → Step
  | .nil => m.goto (.values [.nil])
  | .bool b => m.goto (.values [.bool b])
  | .int i => m.goto (.values [.int i])
  | .float x => m.goto (.values [.float x])
  | .str s => m.goto (.values [.str s])
  | .varargs => m.goto (.values env.extra)
  | .function body =>
    let (c, h) := m.heap.newClosure ⟨body, captured env body, env.chunk⟩
    { m with heap := h }.goto (.values [.closure c])
  | .name line x => m.readName env line x
  | .index line object key => m.push (.indexed line object key env) (.eval object env)
  | .call line callee arguments => m.push (.callee line callee arguments env) (.eval callee env)
  | .method line object x arguments =>
    m.push (.receiver line object x arguments env) (.eval object env)
  | .group e => m.push .first (.eval e env)
  | .table line fields =>
    let (r, h) := m.heap.newTable .empty
    { m with heap := h }.fieldsNext line r [] env fields
  | .binary line op left right => m.push (.left line op left right env) (.eval left env)
  | .unary line op operand => m.push (.unary line op operand env) (.eval operand env)
  | .both left right => m.push (.both right env) (.eval left env)
  | .either left right => m.push (.either right env) (.eval left env)

/-- Iterate once more over a counting loop, if its counter allows. -/
def countNext (m : Machine) (x : Name) (body : List Stmt) (env : Env) (c : Counter) : Step :=
  if c.isAlive then
    let (r, h) := m.heap.newVariable c.value
    { m with heap := h }.push (.counting x body env c.advance) (.exec body (env.bind x r))
  else m.goto .proceed

/-- Ask the iterator of a loop for the next values. -/
def eachNext (m : Machine) (line : Nat) (names : List Name) (body : List Stmt) (env : Env)
    (f s control : Value) : Step :=
  m.push (.iterating line names body env f s)
    (.call f [s, control] (env.site line (some ⟨"for iterator", ascii "for iterator"⟩)))

/-- Use the values of a list of expressions. -/
def reach (m : Machine) (env : Env) (vs : List Value) : Goal → Step
  | .call line mention f first => m.goto (.call f (first ++ vs) (env.site line mention))
  | .locals names rest =>
    let (h, env) := bindAll m.heap env names vs
    { m with heap := h }.goto (.exec rest env)
  | .assign line slots => m.storeAll env line (slots.zip (adjust slots.length vs)).reverse
  | .give => m.goto (.giving vs)
  | .count line x body =>
    let vs := adjust 3 vs
    match Counter.begin (firstOf vs) (firstOf vs.tail) (firstOf vs.tail.tail) with
    | .ok c => m.countNext x body env c
    | .error fault => m.goto (raiseAt env.chunk line (ascii fault.message))
  | .each line names body =>
    let vs := adjust 3 vs
    m.eachNext line names body env (firstOf vs) (firstOf vs.tail) (firstOf vs.tail.tail)

/-- Evaluate a list of expressions for a goal. -/
def evalList (m : Machine) (env : Env) (done : List Value) (goal : Goal) : List Expr → Step
  | [] => m.reach env done.reverse goal
  | e :: rest => m.push (.list done rest env goal) (.eval e env)

/-- Evaluate the objects and keys of the targets of an assignment, then its values. -/
def evalTargets (m : Machine) (env : Env) (line : Nat) (done : List Slot) (values : List Expr) :
    List Expr → Step
  | [] => m.evalList env [] (.assign line done.reverse) values
  | .name l x :: rest =>
    match env.find? x with
    | some r => evalTargets m env line (.variable r :: done) values rest
    | none =>
      let globals := (env.find? "_ENV").elim .nil m.heap.valueOf
      let slot := Slot.field globals (.text x) (mention? env (.name l "_ENV"))
      evalTargets m env line (slot :: done) values rest
  | .index _ object key :: rest =>
    m.push (.targetObject line object key done rest values env) (.eval object env)
  | _ :: rest => evalTargets m env line done values rest

/-- Execute a statement, with those after it in its block. -/
def execute (m : Machine) (env : Env) (after : List Stmt) : Stmt → Step
  | .locals names values => m.evalList env [] (.locals names after) values
  | .localFunction x body =>
    let (r, h) := m.heap.newVariable .nil
    let env := env.bind x r
    let (c, h) := h.newClosure ⟨body, captured env body, env.chunk⟩
    { m with heap := h.setVariable r (.closure c) }.goto (.exec after env)
  | .assign line targets values =>
    { m with stack := .rest after env :: m.stack }.evalTargets env line [] values targets
  | .call e =>
    { m with stack := .rest after env :: m.stack }.push .discard (.eval e env)
  | .block body => m.push (.rest after env) (.exec body env)
  | .loop condition body =>
    .running { m with
      control := .eval condition env
      stack := .test condition body env :: .rest after env :: m.stack }
  | .branch condition yes no =>
    .running { m with
      control := .eval condition env
      stack := .branch yes no env :: .rest after env :: m.stack }
  | .count line x start stop step body =>
    { m with stack := .rest after env :: m.stack }.evalList env [] (.count line x body)
      [.group start, .group stop, .group (step.getD (.int 1))]
  | .each line names values body =>
    { m with stack := .rest after env :: m.stack }.evalList env [] (.each line names body) values
  | .leave => m.goto .leaving
  | .give values =>
    match values with
    | [e] => if e.isCall then m.push .tail (.eval e env) else m.evalList env [] .give [e]
    | values => m.evalList env [] .give values

/-- Apply a binary operator to two values. -/
def binary (m : Machine) (env : Env) (line : Nat) (op : BinaryOp) (left right : Expr)
    (v w : Value) : Step :=
  let truth (b : Bool) : Step := m.goto (.values [.bool b])
  let order (orEqual : Bool) (v w : Value) : Step :=
    match lessThan? orEqual v w with
    | some b => truth b
    | none => m.goto (raiseOrder env line v w)
  match op with
  | .eq => truth (v.rawEqual w)
  | .ne => truth (!v.rawEqual w)
  | .lt => order false v w
  | .le => order true v w
  | .gt => order false w v
  | .ge => order true w v
  | .concat =>
    match v.toBytes?, w.toBytes? with
    | some s, some t => m.goto (.values [.str (s ++ t)])
    | none, _ => m.goto (raiseType env line "concatenate" v (mention? env left))
    | some _, none => m.goto (raiseType env line "concatenate" w (mention? env right))
  | op =>
    match v.toNumeral?, w.toNumeral? with
    | some a, some b =>
      match arithmetic op a b with
      | .ok n => m.goto (.values [.ofNumeral n])
      | .error fault => m.goto (raiseAt env.chunk line (ascii fault.message))
    | none, _ => m.goto (raiseType env line "perform arithmetic on" v (mention? env left))
    | some _, none => m.goto (raiseType env line "perform arithmetic on" w (mention? env right))

/-- Apply a unary operator to a value. -/
def unary (m : Machine) (env : Env) (line : Nat) (op : UnaryOp) (operand : Expr) (v : Value) :
    Step :=
  match op with
  | .not => m.goto (.values [.bool (!v.isTrue)])
  | .negate =>
    match v.toNumeral? with
    | some n => m.goto (.values [.ofNumeral n.negated])
    | none => m.goto (raiseType env line "perform arithmetic on" v (mention? env operand))
  | .length =>
    match v with
    | .str s => m.goto (.values [.int (Int64.ofNat s.size)])
    | .table r => m.goto (.values [.int (Int64.ofNat (m.heap.table r).border)])
    | v => m.goto (raiseType env line "get length of" v (mention? env operand))

/-- The message of a failure that is raised while a value is turned into text. -/
def textFault : String := "'__tostring' must return a string"

/-- Hand values to the frame that waits for them; it has been taken from the stack. -/
def deliver (m : Machine) (vs : List Value) : Frame → Step
  | .first => m.goto (.values [firstOf vs])
  | .discard => m.goto .proceed
  | .unary line op operand env => m.unary env line op operand (firstOf vs)
  | .left line op left right env =>
    m.push (.right line op left right env (firstOf vs)) (.eval right env)
  | .right line op left right env v => m.binary env line op left right v (firstOf vs)
  | .both right env =>
    let v := firstOf vs
    if v.isTrue then m.push .first (.eval right env) else m.goto (.values [v])
  | .either right env =>
    let v := firstOf vs
    if v.isTrue then m.goto (.values [v]) else m.push .first (.eval right env)
  | .indexed line object key env => m.push (.key line object env (firstOf vs)) (.eval key env)
  | .key line object env o => m.index env line o (firstOf vs) (mention? env object)
  | .callee line callee arguments env =>
    m.evalList env [] (.call line (mention? env callee) (firstOf vs) []) arguments
  | .receiver line object x arguments env =>
    let o := firstOf vs
    { m with stack := .method line x arguments env o :: m.stack }.index env line o (.text x)
      (mention? env object)
  | .method line x arguments env o =>
    m.evalList env [] (.call line (some ⟨"method", ascii x⟩) (firstOf vs) [o]) arguments
  | .list done rest env goal =>
    match rest with
    | [] => m.reach env (done.reverse ++ vs) goal
    | e :: rest => m.push (.list (firstOf vs :: done) rest env goal) (.eval e env)
  | .item line r items rest env =>
    if rest.isEmpty then m.fieldsNext line r (vs.reverse ++ items) env []
    else m.fieldsNext line r (firstOf vs :: items) env rest
  | .fieldKey line r items value rest env =>
    m.push (.fieldValue line r items (firstOf vs) rest env) (.eval value env)
  | .fieldValue line r items key rest env => m.setField line r items key (firstOf vs) rest env
  | .branch yes no env => m.goto (.exec (if (firstOf vs).isTrue then yes else no) env)
  | .test condition body env =>
    if (firstOf vs).isTrue then m.push (.looping condition body env) (.exec body env)
    else m.goto .proceed
  | .iterating line names body env f s =>
    let control := firstOf vs
    if control = .nil then m.goto .proceed
    else
      let (h, inner) := bindAll m.heap env names vs
      { m with heap := h }.push (.eachDone line names body env f s control) (.exec body inner)
  | .targetObject line object key done targets values env =>
    m.push (.targetKey line object (firstOf vs) done targets values env) (.eval key env)
  | .targetKey line object o done targets values env =>
    m.evalTargets env line (.field o (firstOf vs) (mention? env object) :: done) values targets
  | .stores line rest env => m.storeAll env line rest
  | .tail => m.goto (.giving vs)
  | .guarded _ => m.goto (.values (.bool true :: vs))
  | .asText =>
    match (firstOf vs).toBytes? with
    | some s => m.goto (.values [.str s])
    | none => m.goto (.raising (.text textFault))
  | .printing done rest =>
    match (firstOf vs).toBytes? with
    | some s => m.goto (.printing (Text.decode s :: done) rest)
    | none => m.goto (.raising (hostFailure ("runtime error: " ++ textFault)))
  | .finalizing rest => m.goto (.finalizing rest)
  | .report => .finished m.heap (.returned vs)
  | .reportText => .finished m.heap (.raised (raisedText (firstOf vs)))
  | .rest .. | .looping .. | .counting .. | .eachDone .. | .activation _ => m.goto (.values vs)

/-- Tell a frame that a statement or the body of a function is finished; the frame has been
taken from the stack. -/
def finishStatement (m : Machine) : Frame → Step
  | .rest statements env => m.goto (.exec statements env)
  | .looping condition body env => m.push (.test condition body env) (.eval condition env)
  | .counting x body env c => m.countNext x body env c
  | .eachDone line names body env f s control => m.eachNext line names body env f s control
  | .activation _ => { m with depth := m.depth - 1 }.goto (.values [])
  | _ => m.goto .proceed

/-- Leave the innermost loop. -/
def leaveLoop (m : Machine) : Frame → Step
  | .looping .. | .counting .. | .eachDone .. => m.goto .proceed
  | _ => m.goto .leaving

/-- Leave the function with results. -/
def leaveFunction (m : Machine) (vs : List Value) : Frame → Step
  | .activation _ => { m with depth := m.depth - 1 }.goto (.values vs)
  | _ => m.goto (.giving vs)

/-- Pass a raised value on, or stop it. -/
def catchRaised (m : Machine) (v : Value) : Frame → Step
  | .guarded _ => m.goto (.values [.bool false, v])
  | .printing _ _ => m.goto (.raising (.failure (raisedText v).toUTF8))
  | .finalizing rest => m.goto (.finalizing rest)
  | .activation _ => { m with depth := m.depth - 1 }.goto (.raising v)
  | .report =>
    let handler := match v with
      | .table _ => m.heap.metamethod v "__tostring"
      | _ => .nil
    if handler = .nil then .finished m.heap (.raised (raisedText v))
    else m.push .reportText (.call handler [v] .outside)
  | .reportText => .finished m.heap (.raised (raisedText v))
  | _ => m.goto (.raising v)

/-- The greatest number of functions that run at the same time. -/
def depthLimit : Nat := 199990

/-- Whether a frame begins a function. -/
def isActivation : Frame → Bool
  | .activation _ => true
  | _ => false

/-- Call a function written in Lua. A call whose results become those of the running function
takes its place. -/
def enter (m : Machine) (c : Closure) (arguments : List Value) (site : Site) : Step :=
  if m.depth ≥ depthLimit then
    m.goto (.raising (.str ⟨(site.position ++ ascii "stack overflow").toArray⟩))
  else
    let (stack, depth) := match m.stack with
      | .tail :: below => (below.dropWhile (! isActivation ·), m.depth)
      | stack => (.activation site :: stack, m.depth + 1)
    let extra := if c.body.isVariadic then arguments.drop c.body.parameters.length else []
    let (h, env) := bindAll m.heap ⟨[], c.captured, extra, c.chunk⟩ c.body.parameters arguments
    .running { heap := h, control := .exec c.body.statements env, stack, depth }

/-- Call a value. -/
def call (m : Machine) (f : Value) (arguments : List Value) (site : Site) : Step :=
  match f with
  | .closure r =>
    match m.heap.closure? r with
    | some c => m.enter c arguments site
    | none => m.goto (.values [])
  | .builtin b =>
    let (h, act) := Library.call m.heap m.stack b arguments site
    let m := { m with heap := h }
    match act with
    | .give vs => m.goto (.values vs)
    | .fail v => m.goto (.raising v)
    | .ask request => .asking request m
    | .go control frames => .running { m with control, stack := frames ++ m.stack }
  | f =>
    let handler := m.heap.metamethod f "__call"
    if handler = .nil then
      m.goto (.raising (.str ⟨(site.position ++ ascii s!"attempt to call a {f.typeName} value" ++
        (site.callee.map Mention.text).getD []).toArray⟩))
    else m.goto (.call handler (f :: arguments) site)

/-- Print the values that are left, each as the text that it or its metamethod gives. -/
def printNext (m : Machine) (done : List String) : List Value → Step
  | [] => .asking (.write ("\t".intercalate done.reverse ++ "\n")) m
  | v :: rest =>
    let handler := m.heap.metamethod v "__tostring"
    if handler = .nil then m.goto (.printing (Text.decode (plainText v) :: done) rest)
    else m.push (.printing done rest) (.call handler [v] .outside)

/-- Run the finalizers that are left. What they raise is ignored. -/
def finalizeNext (m : Machine) : List TableRef → Step
  | [] => m.goto (.values [.int 0])
  | r :: rest =>
    let handler := m.heap.metamethod (.table r) "__gc"
    if handler = .nil then m.goto (.finalizing rest)
    else m.push (.finalizing rest) (.call handler [.table r] .outside)

/-- Hand an outcome to the top frame of the stack. -/
def unwind (m : Machine) (ending : Outcome) (hand : Machine → Frame → Step) : Step :=
  match m.stack with
  | [] => .finished m.heap ending
  | f :: below => hand { m with stack := below } f

/-- One step of the machine. -/
def step (m : Machine) : Step :=
  match m.control with
  | .eval e env => m.eval env e
  | .exec [] _ => m.goto .proceed
  | .exec (s :: rest) env => m.execute env rest s
  | .values vs => m.unwind (.returned vs) (·.deliver vs)
  | .proceed => m.unwind (.returned []) (·.finishStatement)
  | .leaving => m.unwind (.returned []) (·.leaveLoop)
  | .giving vs => m.unwind (.returned vs) (·.leaveFunction vs)
  | .call f arguments site => m.call f arguments site
  | .raising v => m.unwind (.raised (raisedText v)) (·.catchRaised v)
  | .printing done rest => m.printNext done rest
  | .finalizing rest => m.finalizeNext rest

/-- One step of a machine whose state is being closed: a host function that reaches back into the
state fails. -/
def closingStep (m : Machine) : Step :=
  match m.control with
  | .call (.builtin f) arguments _ =>
    if Library.reachesBack f arguments then m.goto (.raising Library.stateGone) else m.step
  | _ => m.step

end Machine

end LuaHost.Lua
