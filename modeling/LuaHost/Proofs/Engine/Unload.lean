import LuaHost.Proofs.Core.Sessions
import LuaHost.Proofs.Engine.Simulation
import LuaHost.Proofs.Engine.Teardown

/-!
# Unloads

Between finding a script and taking it away an unload runs code of that script: its shutdown
function and its finalizers. Whatever that code does, the unload goes through, takes just this
script away and ends with the signal about it.
-/

namespace LuaHost.Engine

open LuaHost.Core (Abreast)

/-- The signal that ends the unload of a script. -/
def farewell (s : Script) : Event := @Event.signal .engine Signal.scriptUnloaded.name s.filename

/-- Events are only added while a script is shut down and destroyed. -/
theorem events_shut_destroyScript (e : Engine) (s : Script) :
    ∃ told : List Event,
      ((e.shut s).destroyScript s.id).core.events = e.core.events ++ told.toArray := by
  have S := Core.simulation_abreast e.core.events e.core.events
  have start : Abreast e.core.events e.core.events e.core e.core :=
    ⟨rfl, rfl, [], Array.append_empty.symm, Array.append_empty.symm⟩
  have informed := S.inform (.unloading s.name) start
  obtain ⟨c, shut, -⟩ := S.shutDown
    (e := e.updateCore (·.inform ("unloading script \"" ++ s.name ++ "\""))) informed s
  obtain ⟨d, destroyed, -⟩ := S.destroyScript (e := e.shut s) shut s.id
  obtain ⟨told, events, -⟩ := destroyed.events
  exact ⟨told, events⟩

/-- The last thing an unload does is to send the signal about its script. -/
theorem events_unload {e : Engine} {s : Script} (found : e.script? s.id = some s) :
    (e.unload s.id).1.core.events =
      ((e.shut s).destroyScript s.id).core.events.push (farewell s) := by
  have forgotten (e' : Engine) : (if e'.scratch = some s.id then { e' with scratch := none }
      else e').core.events = e'.core.events := by split <;> rfl
  simp only [unload, found]
  exact congrArg (·.push (farewell s)) (forgotten _)

/-- An unload of a registered script goes through, whatever the code does that it runs. The script
is taken out of the registry and no other, its context is the one that is destroyed, and the last
the host is told is that the script is unloaded, which it is told once. -/
theorem unload_completes {e₀ e : Engine} {id : ScriptId} {s : Script} (h : e₀.Reachable)
    (moves : e₀.Moves e) (registered : e.script? id = some s) :
    (e.unload id).2 = .ok () ∧
      (∃ before after, e.scripts = before ++ s :: after ∧
        (e.unload id).1.scripts = before ++ after) ∧
      (∀ name, (e.unload id).1.find? name = if name = s.name then none else e.find? name) ∧
      (e.unload id).1.contexts.map Prod.fst = (e.unload id).1.scripts.map Script.context ∧
      (e.unload id).1.core.live + 1 = e.core.live ∧
      ∃ told, (e.unload id).1.core.events.toList = e.core.events.toList ++ told ++ [farewell s] ∧
        told.filterMap Event.own? = [] := by
  obtain rfl := Registry.id_of_get? registered
  have settled := h.settled.moves moves
  have after := settled.unload s.id
  obtain ⟨result, kept⟩ := kept_unload settled.closed settled.activeKnown registered
  have registry : (e.unload s.id).1.core.registry = e.core.registry.remove s.id :=
    kept.core.registry
  have one : (e.unload s.id).1.scripts.length + 1 = e.scripts.length := by
    rw [scripts, registry]
    exact settled.wellFormed.length_remove registered
  refine ⟨result, ?_, ?_, after.contexts, ?_, ?_⟩
  · rw [scripts, scripts, registry]
    exact settled.wellFormed.split_remove registered
  · intro name
    rw [find?, find?, registry]
    exact e.core.registry.find?_remove name registered
  · have before := settled.live
    have now := after.live
    rw [Core.live, Core.live]
    omega
  · obtain ⟨told, earlier⟩ := e.events_shut_destroyScript s
    have events : (e.unload s.id).1.core.events.toList =
        e.core.events.toList ++ told ++ [farewell s] := by
      rw [events_unload registered, earlier]
      simp
    -- The engine sent one signal on its own account, and the last event is it.
    have sent : (e.unload s.id).1.core.sent = e.core.sent ++ [(_, s.filename)] :=
      kept.core.sent.trans (Core.sent_emit _ _)
    refine ⟨told, events, ?_⟩
    rw [Core.sent, events] at sent
    simpa [Core.sent, farewell, Event.own?] using sent

/-- A script whose shutdown function prints, tries to register, asks for an installation and fails,
with an object that does the like when it is finalized. -/
def stubborn : Engine :=
  bare.perform (.load "s.lua" (some
    "weechat.register('s', '', '', '', '', 'bye', '')
function bye()
  print('bye')
  weechat.register('t', '', '', '', '', '', '')
  weechat.signal_send('lua_script_install', 'x.lua')
  error('no')
end
x = setmetatable(\x7b\x7d, \x7b__gc = function()
  weechat.signal_send('lua_script_unloaded', 's.lua')
  error('no')
end\x7d)"))

/-- The script of that engine. -/
def stayer : Script := ⟨⟨1⟩, "s.lua", ⟨"s", "", "", "", "", "bye", ""⟩, ⟨1⟩, true⟩

set_option maxRecDepth 100000 in
/-- The case of a script whose shutdown function prints, registers, asks for an installation and
fails. -/
theorem unload_completes_stubborn :
    stubborn.script? stayer.id = some stayer ∧ (stubborn.unload stayer.id).2 = .ok () ∧
      (stubborn.unload stayer.id).1.core.live + 1 = 1 ∧
      (stubborn.unload stayer.id).1.core.events.toList.getLast? = some (farewell stayer) := by
  obtain ⟨registered, live⟩ :
      stubborn.script? stayer.id = some stayer ∧ stubborn.core.live = 1 := by
    decide +kernel
  obtain ⟨result, -, -, -, fewer, told, events, -⟩ :=
    unload_completes (reachable_bare.perform _) (.refl stubborn) registered
  refine ⟨registered, result, fewer.trans live, ?_⟩
  rw [events, List.getLast?_append]
  rfl

end LuaHost.Engine
