import LuaHost.Proofs.Engine.Reachable

/-!
# What a call can do

Code that runs inside a call reaches the engine through its questions only. While no load waits for
a registration, the answers let it print, ask for files to be installed, removed or linked, and
nothing else.
-/

namespace LuaHost.Engine

/-- What holds of an engine when a function of a script is called: no load waits for its script to
register, and the active script is none or a registered one. -/
structure Callable (e : Engine) : Prop where
  closed : e.core.Closed
  active : ∀ id, e.core.active = some id → (e.script? id).isSome

private theorem Callable.activeKnown {e : Engine} (h : e.Callable) : ActiveKnown e.core := by
  cases active : e.core.active with
  | none => exact activeKnown_of_eq_none active
  | some id =>
    have known : e.core.registry.contains id = true := by
      rw [Registry.contains_eq]
      exact h.active id active
    rw [ActiveKnown, active]
    simp [known]

/-- While a registered script is active functions can be called. -/
theorem Callable.activate {e : Engine} (h : e.Callable) {id : ScriptId}
    (registered : (e.script? id).isSome) : (e.updateCore (·.activate (some id))).Callable := by
  refine ⟨h.closed, ?_⟩
  intro active same
  obtain rfl : id = active := Option.some.inj same
  exact registered

/-- Between two operations functions can be called. -/
theorem Reachable.callable {e : Engine} (h : e.Reachable) : e.Callable where
  closed := h.settled.closed
  active := by
    intro id active
    rw [h.settled.active] at active
    cases active

/-- Whatever code runs inside a call, and however the call ends, the scripts, the load and the
evaluation in progress, the scratch script, the contexts, the quiet mode, the options and the files
are as they were, the script active before is active again, and requests were at most added to the
waiting lists. -/
theorem call_confined (e : Engine) :
    (e.Reachable → e.Callable) ∧
      (e.Callable → ∀ (script : ScriptId) (kind : ResultKind) (function : String)
        (arguments : List Argument), e.Kept (e.invoke script kind function arguments).1) := by
  constructor
  · intro h
    exact h.callable
  · intro h script kind function arguments
    exact kept_invoke h.closed h.activeKnown script kind function arguments

/-- A script whose function tries to register again, asks for an installation, prints and fails. -/
def restless : Engine :=
  bare.perform (.load "a.lua" (some
    "weechat.register('a', '', '', '', '', '', '')
function f()
  weechat.register('b', '', '', '', '', '', '')
  weechat.signal_send('lua_script_install', 'x.lua')
  print('busy')
  error('no')
end"))

set_option maxRecDepth 100000 in
/-- The case of a call that tries to register, asks for an installation, prints and fails. -/
theorem call_confined_restless :
    let e := restless.updateCore (·.activate (some ⟨1⟩))
    let called := (e.invoke ⟨1⟩ .text "f" []).1
    e.Callable ∧ e.Kept called ∧ e.core.requests.install = "" ∧
      called.core.requests.install = "x.lua" := by
  have loaded : restless.Callable := (call_confined restless).1 (reachable_bare.perform _)
  have callable : (restless.updateCore (·.activate (some ⟨1⟩))).Callable :=
    loaded.activate (by decide +kernel)
  refine ⟨callable, (call_confined _).2 callable ⟨1⟩ .text "f" [], ?_⟩
  decide +kernel

end LuaHost.Engine
