import LuaHost.Core.Dump
import LuaHost.Lua.Machine.State
import LuaHost.Signal

/-!
# Answers to running scripts

What the engine does when a running script writes, registers or sends a signal. Every answer is
a function of the state that scripts reach; the rest of the engine is out of their reach.
-/

namespace LuaHost

/-- The time between a request and the run of its batch, in milliseconds. -/
def requestDelay : Nat := 1

/-- Why a registration was refused. -/
inductive Refusal where
  | notLoading
  | registeredBefore
  | nameTaken
  deriving DecidableEq

/-- The words of a refusal. -/
def Refusal.reason : Refusal → String
  | .notLoading => "no script is being loaded"
  | .registeredBefore => "script already registered"
  | .nameTaken => "another script already exists with this name"

namespace Core

/-- Note a request down and add it to the list of its kind, which is run when the delay is over. -/
def request (c : Core) (kind : RequestKind) (item : String) : Core :=
  { c with
    requests := c.requests.add kind item
    timers := c.timers.arm kind (c.clock + requestDelay) }.note (.asked kind item)

/-- Act on a signal that is meant for this engine; `none` for any other. -/
def handleSignal? (c : Core) (name data : String) : Option Core :=
  match Signal.ofName? name with
  | none => none
  | some signal =>
    match signal.request? with
    | some kind => some (c.request kind data)
    | none =>
      if signal = .debugDump ∧ (data.isEmpty ∨ data = engineName) then some c.dump else none

/-- Whether a registration is accepted: a script is being loaded that has not registered yet, and
the name is free. -/
def vet (c : Core) (about : Registration) : Except Refusal Loading :=
  match c.loading with
  | none => .error .notLoading
  | some loading =>
    if loading.registered.isSome then .error .registeredBefore
    else if (c.registry.find? about.name).isSome then .error .nameTaken
    else .ok loading

/-- Move the context of a load into the registry. The new script is active from now on. -/
def enlist (c : Core) (loading : Loading) (about : Registration) : Core :=
  let id := c.registry.nextId
  { c with
    registry := c.registry.add loading.filename about loading.context
    loading := some { loading with registered := some id }
    active := some id }

/-- Warn when licenses are checked and that of a script is not the one of the host. -/
def warnLicense (c : Core) (about : Registration) : Core :=
  if c.options.checkLicense && about.license != c.license then
    c.say ("warning, license \"" ++ about.license ++ "\" for script \"" ++ about.name ++
      "\" differs from host license (\"" ++ c.license ++ "\")")
  else c

/-- Register the script that is being loaded, or say why it cannot be. -/
def register (c : Core) (about : Registration) : Core × Bool :=
  match c.vet about with
  | .error refusal =>
    (c.complain ("unable to register script \"" ++ about.name ++ "\" (" ++ refusal.reason ++ ")"),
      false)
  | .ok loading =>
    (((c.enlist loading about).warnLicense about).inform
      ("registered script \"" ++ about.name ++ "\", version " ++ about.version ++ " (" ++
        about.description ++ ")"), true)

/-- Answer a running script. -/
def answer (c : Core) : Lua.HostCall → Core × Lua.Reply
  | .write text => (c.write text, .done)
  | .register about =>
    let (c, accepted) := c.register about
    (c, .accepted accepted)
  | .sendSignal name data =>
    match c.handleSignal? name data with
    | some c => (c, .status 0)
    | none => (c.emit (@Event.signal .script name data), .status 0)

end Core

end LuaHost
