import LuaHost.Lua.Machine.Step

/-!
# Interpreter states

A fresh interpreter state holds the library and the host functions. Chunks, functions and
collections are started in a state and run by the machine.
-/

namespace LuaHost.Lua

namespace Interpreter

/-- Fields that hold library functions under their names. -/
def functions (fs : List (String × Builtin)) : List (Value × Value) :=
  fs.map fun (x, f) => (.text x, .builtin f)

/-- Fields for the functions of a library that exist but cannot be called here. -/
def absentFrom (library : String) (names : List String) : List (Value × Value) :=
  names.map fun x => (.text x, .builtin (.absent (library ++ "." ++ x)))

/-- The string library. -/
def stringFields : List (Value × Value) :=
  functions [("rep", .stringRep)] ++
    absentFrom "string" ["byte", "char", "dump", "find", "format", "gmatch", "gsub", "len", "lower",
      "match", "pack", "packsize", "reverse", "sub", "unpack", "upper"]

/-- The table library. -/
def tableFields : List (Value × Value) :=
  functions [("concat", .tableConcat)] ++
    absentFrom "table" ["insert", "move", "pack", "remove", "sort", "unpack"]

/-- The number pi. -/
def pi : Binary64 := Binary64.ofDecimal 3141592653589793116 (-18)

/-- The math library. -/
def mathFields : List (Value × Value) :=
  [(.text "huge", .float (Binary64.infinity false)), (.text "pi", .float pi),
    (.text "maxinteger", .int Int64.maxValue), (.text "mininteger", .int Int64.minValue)] ++
    absentFrom "math" ["abs", "acos", "asin", "atan", "ceil", "cos", "deg", "exp", "floor", "fmod",
      "log", "max", "min", "modf", "rad", "random", "randomseed", "sin", "sqrt", "tan", "tointeger",
      "type", "ult"]

/-- The stream library. -/
def ioFields : List (Value × Value) :=
  functions [("write", .write)] ++
    absentFrom "io" ["close", "flush", "input", "lines", "open", "output", "popen", "read",
      "tmpfile", "type"]

/-- The system library. -/
def osFields : List (Value × Value) :=
  absentFrom "os" ["clock", "date", "difftime", "execute", "exit", "getenv", "remove", "rename",
    "setlocale", "time", "tmpname"]

/-- The functions of the host, and its constants. -/
def hostFields : List (Value × Value) :=
  functions [("register", .register), ("signal_send", .sendSignal)] ++
    [(.text "WEECHAT_RC_OK", .int 0), (.text "WEECHAT_RC_OK_EAT", .int 1),
      (.text "WEECHAT_RC_ERROR", .int (-1)), (.text "plugin_name", .text "lua")]

/-- The functions that are globals themselves. -/
def globalFunctions : List (Value × Value) :=
  functions [("print", .print), ("type", .type), ("tostring", .tostring), ("select", .select),
    ("pcall", .pcall), ("error", .error), ("assert", .assert), ("load", .load),
    ("rawget", .rawget), ("rawset", .rawset), ("rawequal", .rawequal), ("rawlen", .rawlen),
    ("getmetatable", .getmetatable), ("setmetatable", .setmetatable), ("next", .next),
    ("pairs", .pairs), ("ipairs", .ipairs), ("collectgarbage", .collectgarbage)] ++
    ["dofile", "loadfile", "require", "tonumber", "warn", "xpcall"].map fun x =>
      (.text x, .builtin (.absent x))

/-- The libraries with their names, in the order of their tables behind the globals. -/
def libraries : List (String × List (Value × Value)) :=
  [("string", stringFields), ("table", tableFields), ("math", mathFields), ("io", ioFields),
    ("os", osFields),
    ("coroutine", absentFrom "coroutine" ["close", "create", "isyieldable", "resume", "running",
      "status", "wrap", "yield"]),
    ("utf8", absentFrom "utf8" ["char", "codepoint", "codes", "len", "offset"]),
    ("package", absentFrom "package" ["searchpath"])]

/-- The references of the library tables, with their names. -/
def libraryRefs : List (String × TableRef) :=
  (libraries.map (·.1)).zipIdx.map fun (x, n) => (x, ⟨n + 1⟩)

/-- The table of the globals. -/
def globalsRef : TableRef := ⟨0⟩

/-- The table of the host functions. -/
def hostRef : TableRef := ⟨libraries.length + 1⟩

/-- The metatable of strings. -/
def stringMetaRef : TableRef := ⟨libraries.length + 2⟩

/-- The globals of a state. -/
def globalFields : List (Value × Value) :=
  globalFunctions ++ libraryRefs.map (fun (x, r) => (.text x, .table r)) ++
    [(.text "_G", .table globalsRef), (.text "_VERSION", .text "Lua 5.4"),
      (.text "weechat", .table hostRef)]

/-- The heap of a state before the streams are set up. -/
def bare : Heap :=
  let tables := ⟨globalFields, none⟩ :: libraries.map (fun (_, fields) => Table.mk fields none) ++
    [⟨hostFields, none⟩, ⟨[(.text "__index", .table ⟨1⟩)], none⟩]
  { tables := tables.toArray, closures := #[], shared := #[], finalizable := [],
    globals := globalsRef, stringMeta := stringMetaRef, library := libraryRefs.map (·.2) }

/-- The lines of the chunk that sets up the streams: they write to the captured output and cannot be
closed, and a script cannot end the program. -/
def streams : List String :=
  ["local write = io.write",
    "local function stream()",
    "  return \x7b",
    "    write = function(self, ...) write(...) return self end,",
    "    flush = function(self) return self end,",
    "    setvbuf = function() return true end,",
    "    close = function() return nil, \"cannot close standard file\" end,",
    "  \x7d",
    "end",
    "io.stdout = stream()",
    "io.stderr = stream()",
    "io.output = function() return io.stdout end",
    "if os then",
    "  os.exit = function() error(\"os.exit is not allowed in scripts\", 2) end",
    "end"]

/-- A function for the statements of a chunk; its variables are the globals. -/
def function (h : Heap) (chunk : List UInt8) (body : Body) : Value × Heap :=
  let (v, h) := h.newVariable (.table h.globals)
  let (c, h) := h.newClosure ⟨body, [("_ENV", v)], chunk⟩
  (.closure c, h)

/-- A machine that calls a value for the host. -/
def start (h : Heap) (f : Value) (arguments : List Value) : Machine :=
  ⟨h, .call f arguments .outside, [.report], 0⟩

/-- A machine that runs the finalizers of what is garbage. -/
def collecting (h : Heap) : Machine :=
  let (dead, h) := Collector.collect h []
  ⟨h, .finalizing dead, [.report], 0⟩

/-- A machine that runs the finalizers of everything that is left, for a state that is being
closed. Nothing that becomes finalizable then is finalized. -/
def closing (h : Heap) : Machine :=
  ⟨{ h with finalizable := [] }, .finalizing h.finalizable, [.report], 0⟩

/-- Run a machine without a host, for a number of steps. -/
def settle : Nat → Machine → Heap
  | 0, m => m.heap
  | fuel + 1, m =>
    match m.step with
    | .running m => settle fuel m
    | .asking _ m => settle fuel (m.resume .done)
    | .finished h _ => h

/-- The heap of a fresh state. -/
def fresh : Heap :=
  match parse (streams.flatMap fun line => 10 :: line.toUTF8.data.toList) with
  | .error _ => bare
  | .ok body =>
    let (f, h) := function bare (ascii "stdio") body
    settle 1000 (start h f [])

end Interpreter

end LuaHost.Lua
