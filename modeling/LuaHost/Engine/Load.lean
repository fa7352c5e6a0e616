import LuaHost.Engine.Invoke

/-!
# Loading and unloading scripts

A load runs the source of a script in a fresh context. The script has to register while its
source runs, which moves the context into the registry. Whatever goes wrong, the context is
destroyed and the registry is left as it was.
-/

namespace LuaHost.Engine

/-- The bytes of a script: those of the given code, or those of the file. -/
def sourceOf (e : Engine) (filename : String) : (code : Option String) → Except OsError ByteArray
  | some code => .ok code.toUTF8
  | none => e.files.read filename

/-- The name that the chunk of a script file has. -/
def chunkName (filename : String) : List UInt8 := 64 :: filename.toUTF8.data.toList

/-- Compile the source of a script. -/
def compileSource (filename : String) (source : ByteArray) : Except String Lua.Body :=
  let name := chunkName filename
  match name.findIdx? (· = 0) with
  | some i =>
    .error ("runtime error: invalid name: nul byte found in provided data at position: " ++
      toString i)
  | none =>
    match Lua.compile (Lua.ChunkName.shown name) source.data.toList with
    | .ok body => .ok body
    | .error message => .error ("syntax error: " ++ Lua.messageText message)

/-- A machine that runs the source of a script. -/
def sourceMachine (filename : String) (body : Lua.Body) (h : Lua.Heap) : Lua.Machine :=
  let (f, h) := Lua.Interpreter.function h (Lua.ChunkName.shown (chunkName filename)) body
  Lua.Interpreter.start h f []

/-- Run the source of a script in a context; the result is the failure it ends in, if any. -/
def runSource (e : Engine) (context : ContextId) (filename : String) (source : ByteArray) :
    Engine × Option String :=
  match compileSource filename source with
  | .error message => (e, some message)
  | .ok body =>
    match e.runIn context (sourceMachine filename body) with
    | (e, .returned _) => (e, none)
    | (e, .raised message) => (e, some message)

/-- Print why a source failed. `inFile` tells that it was read from a file. -/
def reportSource (e : Engine) (filename : String) (inFile : Bool) : Option String → Engine
  | none => e
  | some message =>
    let complaint :=
      if inFile then "unable to parse file \"" ++ filename ++ "\""
      else "unable to execute source code"
    e.updateCore fun c => (c.complain complaint).report message

/-- Run the source of the load in progress. No script is active until it registers, and
afterwards the one is again that was active before. -/
def runLoad (e : Engine) (context : ContextId) (filename : String) (source : ByteArray)
    (inFile : Bool) : Engine × Option String :=
  let (after, failure) := (e.updateCore (·.activate none)).runSource context filename source
  ((after.reportSource filename inFile failure).updateCore
    fun c => c.flush.restore e.core.active, failure)

/-- Release the context of a script while the script is still registered and active, so that
what its finalizers print is printed under its name. -/
def releaseScript (e : Engine) (s : Script) : Engine :=
  let after := ((e.updateCore (·.activate (some s.id))).release s.context)
  after.updateCore fun c => c.flush.restore e.core.active

/-- Take a script out of the registry. If it was active, the one loaded before it becomes
active, else the one loaded after it. -/
def withdraw (c : Core) (id : ScriptId) : Core :=
  { c with
    active := if c.active = some id then c.registry.neighbour? id else c.active
    registry := c.registry.remove id }

/-- Take a script out of the registry and destroy its context. -/
def destroyScript (e : Engine) (id : ScriptId) : Engine :=
  match e.script? id with
  | none => e
  | some s =>
    (((e.releaseScript s).updateCore (withdraw · id)).destroyContext s.context).updateCore
      Core.flush

/-- Create the context of a load. The message about it comes first. -/
def openLoad (e : Engine) (filename : String) : Engine × ContextId :=
  let (e, context) :=
    (e.updateCore (·.inform ("loading script \"" ++ filename ++ "\""))).createContext
  (e.updateCore fun c => { c with loading := some ⟨filename, context, none⟩ }, context)

/-- Close the load in progress; the result is the script that it registered, if any. -/
def closeLoad (e : Engine) : Engine × Option ScriptId :=
  (e.updateCore fun c => { c with loading := none }, e.core.loading.bind Loading.registered)

/-- Undo a load: the script that it registered is taken out again, and the context is
destroyed. -/
def undoLoad (e : Engine) (context : ContextId) : Option ScriptId → Engine
  | some id => e.destroyScript id
  | none => e.destroyContext context

/-- Complete a load: the buffers of the script are attached to its functions, and the host is
told. -/
def completeLoad (e : Engine) (id : ScriptId) (filename : String) : Engine :=
  let e := e.updateCore fun c => { c with registry := c.registry.setComplete id }
  let name := ((e.script? id).map Script.name).getD ""
  e.updateCore fun c =>
    (c.emit (.callbacks name)).emit (@Event.signal .engine Signal.scriptLoaded.name filename)

/-- Conclude a load that is closed. It succeeded if its source ran through and registered a
script. -/
def concludeLoad (e : Engine) (context : ContextId) (filename : String) :
    Option String → Option ScriptId → Engine × Except Failure ScriptId
  | some message, registered =>
    (e.undoLoad context registered, .error (.source filename message))
  | none, some id => (e.completeLoad id filename, .ok id)
  | none, none =>
    let e := e.updateCore (·.complain (Failure.unregistered filename).message)
    (e.undoLoad context none, .error (.unregistered filename))

/-- Run a source that was found as the load of a script. -/
def loadSource (e : Engine) (filename : String) (source : ByteArray) (inFile : Bool) :
    Engine × Except Failure ScriptId :=
  let (e, context) := e.openLoad filename
  let (e, failure) := e.runLoad context filename source inFile
  let (e, registered) := e.closeLoad
  e.concludeLoad context filename failure registered

/-- Load a script from a file, or from code to which the file only lends its name. -/
def load (e : Engine) (filename : String) (code : Option String) :
    Engine × Except Failure ScriptId :=
  match e.sourceOf filename code with
  | .error error =>
    (e.updateCore (·.complain ("script \"" ++ filename ++ "\" not found")),
      .error (.file filename error))
  | .ok source => e.loadSource filename source code.isNone

/-- Load a script by its name, which is looked up in the script directories. -/
def loadNamed (e : Engine) (name : String) : Engine × Except Failure ScriptId :=
  e.load (e.search name) none

/-- Load scripts one after the other and count those that could be loaded. -/
def loadAll (e : Engine) : List String → Engine × Nat
  | [] => (e, 0)
  | path :: rest =>
    let (e, result) := e.load path none
    let (e, count) := e.loadAll rest
    (e, match result with
      | .ok _ => count + 1
      | .error _ => count)

/-- Load the scripts of the autoload directory quietly; the result is their number. -/
def autoload (e : Engine) : Engine × Nat :=
  match e.dirs.autoloadScripts e.files with
  | .error _ => (e, 0)
  | .ok paths => e.withQuiet true (·.loadAll paths)

/-- Call the function that a script wants to be called before it is unloaded. -/
def shutDown (e : Engine) (s : Script) : Engine :=
  match s.shutdown? with
  | some function => (e.invoke s.id .integer function []).1
  | none => e

/-- Unload a script: its shutdown function is called, its context is destroyed, and the host is
told. -/
def unload (e : Engine) (id : ScriptId) : Engine × Except Failure Unit :=
  match e.script? id with
  | none => (e, .error (.notLoaded id.text))
  | some s =>
    let e := e.updateCore (·.inform ("unloading script \"" ++ s.name ++ "\""))
    let e := (e.shutDown s).destroyScript id
    let e := if e.scratch = some id then { e with scratch := none } else e
    (e.updateCore (·.emit (@Event.signal .engine Signal.scriptUnloaded.name s.filename)), .ok ())

/-- Unload a script by its name and go on with the script as it was. -/
def unloadThen {α : Type} (e : Engine) (name : String)
    (next : Engine → Script → Engine × Except Failure α) : Engine × Except Failure α :=
  match (e.find? name).bind e.script? with
  | none =>
    (e.updateCore (·.complain (Failure.notLoaded name).message), .error (.notLoaded name))
  | some s =>
    match e.unload s.id with
    | (e, .error failure) => (e, .error failure)
    | (e, .ok ()) =>
      next (e.updateCore (·.inform ("script \"" ++ name ++ "\" unloaded"))) s

/-- Unload a script by its name. -/
def unloadNamed (e : Engine) (name : String) : Engine × Except Failure Unit :=
  e.unloadThen name fun e _ => (e, .ok ())

/-- Unload a script by its name and load it again from the same file. -/
def reload (e : Engine) (name : String) : Engine × Except Failure ScriptId :=
  e.unloadThen name fun e s => e.load s.filename none

/-- Unload the oldest script, a number of times. -/
def unloadOldest : Nat → Engine → Engine
  | 0, e => e
  | n + 1, e =>
    match e.core.registry.first? with
    | none => e
    | some id =>
      match e.unload id with
      | (e, .ok ()) => unloadOldest n e
      | (e, .error _) => e

/-- Unload every script, oldest first. -/
def unloadAll (e : Engine) : Engine := unloadOldest e.core.registry.size e

end LuaHost.Engine
