import LuaHost.Handle
import LuaHost.Lua.Collector
import LuaHost.Lua.Parser

/-!
# The library

What a call of a library function comes to. Most functions answer at once; some go on in the
machine, because they call functions of the script, and those of the host end in a request.
-/

namespace LuaHost.Lua

/-- The name a library function is called by in messages when the call does not name it. -/
def Builtin.name : Builtin → String
  | .print => "print"
  | .write => "io.write"
  | .register => "weechat.register"
  | .sendSignal => "weechat.signal_send"
  | .type => "type"
  | .tostring => "tostring"
  | .select => "select"
  | .pcall => "pcall"
  | .error => "error"
  | .assert => "assert"
  | .load => "load"
  | .rawget => "rawget"
  | .rawset => "rawset"
  | .rawequal => "rawequal"
  | .rawlen => "rawlen"
  | .getmetatable => "getmetatable"
  | .setmetatable => "setmetatable"
  | .next => "next"
  | .pairs => "pairs"
  | .ipairs => "ipairs"
  | .ipairsStep => "?"
  | .collectgarbage => "collectgarbage"
  | .stringRep => "string.rep"
  | .tableConcat => "table.concat"
  | .absent x => x

/-- What follows the message of a failure raised while a script runs. -/
def traceHeading : String := "\nstack traceback:"

/-- The text of bytes in a message, which ends at a NUL. -/
def messageText (s : List UInt8) : String :=
  Text.decode ⟨(s.takeWhile (· ≠ 0)).toArray⟩

/-- An address as it is shown for values that have no text of their own. -/
def addressText (what : String) (n : Nat) : ByteArray :=
  (what ++ ": 0x" ++ String.ofList (Handle.hexDigits (0x100000 + 32 * n))).toUTF8

/-- The text of a value that no metamethod gives one. -/
def plainText : Value → ByteArray
  | .nil => "nil".toUTF8
  | .bool true => "true".toUTF8
  | .bool false => "false".toUTF8
  | .int i => (Numeral.text (.int i)).toUTF8
  | .float x => (Numeral.text (.float x)).toUTF8
  | .str s => s
  | .table r => addressText "table" r.index
  | .closure r => addressText "function" r.index
  | .builtin f => ("function: builtin: " ++ f.name).toUTF8
  | .failure text => text

/-- How the host shows a value that was raised and not caught. -/
def raisedText : Value → String
  | .failure text => Text.decode text
  | v => "runtime error: " ++ messageText (plainText v).data.toList ++ traceHeading

/-- A failure of a host function, as a value. -/
def hostFailure (message : String) : Value := .failure (message ++ traceHeading).toUTF8

/-- What a call of a library function comes to. -/
inductive Act where
  | give (vs : List Value)
  | fail (v : Value)
  | ask (call : HostCall)
  /-- Go on with a task, with frames that wait for it. -/
  | go (control : Control) (frames : List Frame)

namespace Library

/-- A failure with the place of the call in front. -/
def failAt (site : Site) (message : List UInt8) : Act :=
  .fail (.str ⟨(site.position ++ message).toArray⟩)

/-- A wrong argument. The object of a method call is not counted. -/
def badArgument (f : Builtin) (site : Site) (n : Nat) (problem : String) : Act :=
  let wrong (n : Nat) (name : List UInt8) : Act :=
    failAt site (ascii s!"bad argument #{n} to '" ++ name ++ ascii s!"' ({problem})")
  match site.callee with
  | none => wrong n (ascii f.name)
  | some m =>
    if m.kind = "method" then
      if n = 1 then failAt site (ascii "calling '" ++ m.name ++ ascii s!"' on bad self ({problem})")
      else wrong (n - 1) m.name
    else wrong n m.name

/-- The name of the type of an argument, which may be missing. -/
def argumentType (args : List Value) (n : Nat) : String :=
  match args[n - 1]? with
  | some v => v.typeName
  | none => "no value"

/-- An argument of the wrong type. -/
def badType (f : Builtin) (site : Site) (args : List Value) (n : Nat) (wanted : String) : Act :=
  badArgument f site n s!"{wanted} expected, got {argumentType args n}"

/-- Go on with an argument, which may be missing. -/
def withAny (f : Builtin) (site : Site) (args : List Value) (n : Nat) (go : Value → Act) : Act :=
  match args[n - 1]? with
  | some v => go v
  | none => badArgument f site n "value expected"

/-- Go on with a table argument. -/
def withTable (f : Builtin) (site : Site) (args : List Value) (n : Nat) (go : TableRef → Act) :
    Act :=
  match args[n - 1]? with
  | some (.table r) => go r
  | _ => badType f site args n "table"

/-- Go on with a string argument; numbers are written out. -/
def withString (f : Builtin) (site : Site) (args : List Value) (n : Nat) (go : ByteArray → Act) :
    Act :=
  match (args[n - 1]?).bind Value.toBytes? with
  | some s => go s
  | none => badType f site args n "string"

/-- Go on with an integer argument; strings are read. -/
def withInt (f : Builtin) (site : Site) (args : List Value) (n : Nat) (go : Int → Act) : Act :=
  match (args[n - 1]?).bind Value.toNumeral? with
  | none => badType f site args n "number"
  | some x =>
    match x.toInt? with
    | some i => go i.toInt
    | none => badArgument f site n "number has no integer representation"

/-- Go on with an integer argument that may be missing. -/
def withIntOr (f : Builtin) (site : Site) (args : List Value) (n : Nat) (default : Int)
    (go : Int → Act) : Act :=
  match args[n - 1]? with
  | none | some .nil => go default
  | some _ => withInt f site args n go

/-- The place of the call that is `level` functions up, in front of a message. -/
def levelPosition (site : Site) (stack : List Frame) (level : Int) : List UInt8 :=
  let sites := stack.filterMap fun
    | .activation s | .guarded s => some s
    | _ => none
  if level ≤ 0 then []
  else match (site :: sites)[level.toNat - 1]? with
    | some s => s.position
    | none => []

/-- Raise a value, with the place of a call in front of a string. -/
def error (site : Site) (stack : List Frame) (args : List Value) : Act :=
  withIntOr .error site args 2 1 fun level =>
    match args.head?.getD .nil with
    | .str s => .fail (.str ⟨(levelPosition site stack level ++ s.data.toList).toArray⟩)
    | v => .fail v

/-- Select arguments from a position on, or count them. -/
def select (site : Site) (args : List Value) : Act :=
  let rest := args.tail
  if args.head? = some (.text "#") then .give [.int (Int64.ofNat rest.length)]
  else withInt .select site args 1 fun n =>
    if n < 0 then
      if n.natAbs > rest.length then badArgument .select site 1 "index out of range"
      else .give (rest.drop (rest.length - n.natAbs))
    else if n = 0 then badArgument .select site 1 "index out of range"
    else .give (rest.drop (n.toNat - 1))

/-- Raise the second argument unless the first one is true, with the place of the call in front of
a string. -/
def assert (site : Site) (args : List Value) : Act :=
  withAny .assert site args 1 fun v =>
    if v.isTrue then .give args
    else match args[1]?.getD (.text "assertion failed!") with
      | .str message => failAt site message.data.toList
      | message => .fail message

/-- Repeat a string with a separator between the copies. -/
def rep (site : Site) (args : List Value) : Act :=
  withString .stringRep site args 1 fun s =>
  withInt .stringRep site args 2 fun n =>
  let separator := match args[2]? with
    | none | some .nil => some ByteArray.empty
    | some v => v.toBytes?
  match separator with
  | none => badType .stringRep site args 3 "string"
  | some sep =>
    if n ≤ 0 then .give [.str ByteArray.empty]
    else if (s.size + sep.size) * n.toNat ≥ Nat.pow 2 31 then
      failAt site (ascii "resulting string too large")
    else .give [.str ((List.replicate (n.toNat - 1) (sep ++ s)).foldl (· ++ ·) s)]

/-- Join the items of a table from one index to another. -/
def concatFrom (h : Heap) (site : Site) (r : TableRef) (sep acc : ByteArray) (i : Int) : Nat → Act
  | 0 => .give [.str acc]
  | left + 1 =>
    match (h.rawGet r (.int (Int64.ofInt i))).toBytes? with
    | none => failAt site (ascii s!"invalid value (at index {i}) in table for 'concat'")
    | some s =>
      if left = 0 then .give [.str (acc ++ s)]
      else concatFrom h site r sep (acc ++ s ++ sep) (i + 1) left

/-- Join the items of a table. -/
def concat (h : Heap) (site : Site) (args : List Value) : Act :=
  withTable .tableConcat site args 1 fun r =>
  let separator := match args[1]? with
    | none | some .nil => some ByteArray.empty
    | some v => v.toBytes?
  match separator with
  | none => badType .tableConcat site args 2 "string"
  | some sep =>
    withIntOr .tableConcat site args 3 1 fun i =>
    withIntOr .tableConcat site args 4 (h.table r).border fun j =>
    concatFrom h site r sep ByteArray.empty i (j - i + 1).toNat

/-- The text a stream is given for a value: strings and numbers only. -/
def writtenText? : Value → Option String
  | .str s => some (Text.decode s)
  | .int i => some (toString i.toInt)
  | .float x => some (Decimal.written x)
  | _ => none

/-- Write strings and numbers to the captured output. -/
def write (args : List Value) : Act :=
  match args.findIdx? fun v => (writtenText? v).isNone with
  | some i =>
    let what := (args[i]?).elim "nil" Value.hostTypeName
    .fail (hostFailure
      s!"runtime error: bad argument #{i + 1} to 'write' (string expected, got {what})")
  | none => .ask (.write (String.join (args.filterMap writtenText?)))

/-- Why an argument of a host function is no text. -/
def notText (n : Nat) (v : Value) (problem : String) : String :=
  s!"bad argument #{n}: error converting Lua {v.hostTypeName} to String ({problem})"

/-- An argument of a host function that has to be a text; a number is written out. -/
def textArgument (args : List Value) (n : Nat) : Except String String :=
  let v := (args[n - 1]?).getD .nil
  match v.toBytes? with
  | none => .error (notText n v "expected string or number")
  | some s =>
    match Text.decode? s with
    | .ok text => .ok text
    | .error fault => .error (notText n v fault.message)

/-- An argument of a host function that may be left out. -/
def optionalText (args : List Value) (n : Nat) : Except String String :=
  match args[n - 1]? with
  | none | some .nil => .ok ""
  | some _ => textArgument args n

/-- The registration that the arguments of a script give. -/
def registration (args : List Value) : Except String Registration := do
  let name ← textArgument args 1
  let author ← textArgument args 2
  let version ← textArgument args 3
  let license ← textArgument args 4
  let description ← textArgument args 5
  let shutdown ← optionalText args 6
  let charset ← optionalText args 7
  return { name, author, version, license, description, shutdown, charset }

/-- The signal and the data that the arguments of a script give. -/
def signal (args : List Value) : Except String (String × String) := do
  let name ← textArgument args 1
  let data ← optionalText args 2
  return (name, data)

/-- Ask the host, or fail when the arguments do not fit. -/
def request {α : Type} (call : α → HostCall) : Except String α → Act
  | .ok a => .ask (call a)
  | .error problem => .fail (hostFailure problem)

/-- Compile the text of a chunk into a function; its variables are those of the globals or of a
given table. A failure is a result. -/
def load (h : Heap) (site : Site) (args : List Value) : Heap × Act :=
  match (args.head?).bind Value.toBytes? with
  | none => (h, badType .load site args 1 "function")
  | some source =>
    let label := match (args[1]?).bind Value.toBytes? with
      | some s => s
      | none => source
    let chunk := ChunkName.shown label.data.toList
    let mode := match (args[2]?).bind Value.toBytes? with
      | some s => s.data.toList
      | none => ascii "bt"
    let isBinary := source.data[0]? = some binaryMark
    let kind := if isBinary then "binary" else "text"
    if !mode.contains (if isBinary then 98 else 116) then
      let message := ascii s!"attempt to load a {kind} chunk (mode is '" ++ mode ++ ascii "')"
      (h, .give [.nil, .str ⟨message.toArray⟩])
    else match compile chunk source.data.toList with
      | .error message => (h, .give [.nil, .str ⟨message.toArray⟩])
      | .ok body =>
        let environment := (args[3]?).getD (.table h.globals)
        let (v, h) := h.newVariable environment
        let (c, h) := h.newClosure ⟨body, [("_ENV", v)], chunk⟩
        (h, .give [.closure c])

/-- Give a table a metatable. One with a finalizer makes the table finalizable. -/
def setmetatable (h : Heap) (site : Site) (args : List Value) : Heap × Act :=
  match args.head?, args[1]? with
  | some (.table r), some m =>
    let new : Option (Option TableRef) := match m with
      | .nil => some none
      | .table m => some (some m)
      | _ => none
    match new with
    | none => (h, badType .setmetatable site args 2 "nil or table")
    | some new =>
      if h.metamethod (.table r) "__metatable" ≠ .nil then
        (h, failAt site (ascii "cannot change a protected metatable"))
      else
        let h := h.modifyTable r fun t => { t with metatable := new }
        let h :=
          if h.metamethod (.table r) "__gc" ≠ .nil ∧ r ∉ h.finalizable then
            { h with finalizable := r :: h.finalizable }
          else h
        (h, .give [.table r])
  | some (.table _), none => (h, badType .setmetatable site args 2 "nil or table")
  | _, _ => (h, badType .setmetatable site args 1 "table")

/-- Set a field without metamethods. -/
def rawset (h : Heap) (site : Site) (args : List Value) : Heap × Act :=
  match args with
  | .table r :: k :: v :: _ =>
    if k = .nil then (h, failAt .outside (ascii "table index is nil"))
    else (h.rawSet r k v, .give [.table r])
  | .table _ :: rest => (h, badArgument .rawset site (rest.length + 2) "value expected")
  | _ => (h, badType .rawset site args 1 "table")

/-- The metatable of a value, or what it shows instead. -/
def getmetatable (h : Heap) (v : Value) : Value :=
  match h.metatable? v with
  | none => .nil
  | some m =>
    let shown := (h.table m).get (.text "__metatable")
    if shown = .nil then .table m else shown

/-- Whether a finalizer is running. -/
def isFinalizing (stack : List Frame) : Bool :=
  stack.any fun
    | .finalizing _ => true
    | _ => false

/-- What a call of a library function comes to. -/
def call (h : Heap) (stack : List Frame) (f : Builtin) (args : List Value) (site : Site) :
    Heap × Act :=
  match f with
  | .print => (h, .go (.printing [] args) [])
  | .write => (h, write args)
  | .register => (h, request .register (registration args))
  | .sendSignal => (h, request (fun s => .sendSignal s.1 s.2) (signal args))
  | .type => (h, withAny f site args 1 fun v => .give [.text v.typeName])
  | .tostring => (h, withAny f site args 1 fun v =>
      let handler := h.metamethod v "__tostring"
      if handler = .nil then .give [.str (plainText v)]
      else .go (.call handler [v] .outside) [.asText])
  | .select => (h, select site args)
  | .pcall => (h, withAny f site args 1 fun v => .go (.call v args.tail .outside) [.guarded site])
  | .error => (h, error site stack args)
  | .assert => (h, assert site args)
  | .load => load h site args
  | .rawget => (h, withTable f site args 1 fun r => withAny f site args 2 fun k =>
      .give [h.rawGet r k])
  | .rawset => rawset h site args
  | .rawequal => (h, withAny f site args 1 fun v => withAny f site args 2 fun w =>
      .give [.bool (v.rawEqual w)])
  | .rawlen => (h, match args.head? with
      | some (.table r) => .give [.int (Int64.ofNat (h.table r).border)]
      | some (.str s) => .give [.int (Int64.ofNat s.size)]
      | _ => badType f site args 1 "table or string")
  | .getmetatable => (h, withAny f site args 1 fun v => .give [getmetatable h v])
  | .setmetatable => setmetatable h site args
  | .next => (h, withTable f site args 1 fun r =>
      match (h.table r).next? ((args[1]?).getD Value.nil).key with
      | some (some (k, v)) => .give [k, v]
      | some none => .give [.nil]
      | none => .fail (.text "invalid key to 'next'"))
  | .pairs => (h, withAny f site args 1 fun v => .give [.builtin .next, v, .nil])
  | .ipairs => (h, withAny f site args 1 fun v => .give [.builtin .ipairsStep, v, .int 0])
  | .ipairsStep => (h, withInt f site args 2 fun i =>
      match h.lookup (.int (Int64.ofInt (i + 1))) true Heap.chainLimit (args.head?.getD .nil) with
      | .found .nil => .give [.nil]
      | .found v => .give [.int (Int64.ofInt (i + 1)), v]
      | _ => .give [.nil])
  | .collectgarbage =>
    -- A finalizer cannot start a collection.
    if isFinalizing stack then (h, .give [.nil])
    else
      let (dead, h) := Collector.collect h stack
      (h, .go (.finalizing dead) [])
  | .stringRep => (h, rep site args)
  | .tableConcat => (h, concat h site args)
  | .absent x => (h, failAt site (ascii s!"'{x}' is not available"))

/-! ### While a state is being closed -/

/-- The failure of a host function that reaches back into a state which is being closed. -/
def stateGone : Value := .failure "Lua instance is destroyed".toUTF8

/-- Whether the first argument that is no text is a number, which only the state can write out.
Behind the first `wanted` arguments `nil` stands for none. -/
def meetsNumber (wanted optional : Nat) (args : List Value) : Bool :=
  let isRead (v : Value) (n : Nat) : Bool :=
    match v with
    | .str s => (Text.decode? s).isOk
    | .nil => wanted ≤ n
    | _ => false
  match (args.take (wanted + optional)).zipIdx.find? fun (v, n) => !isRead v n with
  | some (v, _) => v.numeral?.isSome
  | none => false

/-- Whether a call of a host function reaches back into the interpreter state: the functions that
print do so for everything but numbers, those that take texts for numbers only. -/
def reachesBack (f : Builtin) (args : List Value) : Bool :=
  match f with
  | .print => !args.isEmpty
  | .write =>
    match args.find? (·.numeral?.isNone) with
    | some (.str _) => true
    | _ => false
  | .register => meetsNumber 5 2 args
  | .sendSignal => meetsNumber 1 1 args
  | _ => false

end Library

end LuaHost.Lua
