import LuaHost.Proofs.Engine.History

/-!
# Closing

An engine that goes away is closed. Unless that happened before, it unloads every script that is
left. A second close does nothing, so scripts that are loaded after the first one are left behind.
-/

namespace LuaHost.Engine

/-- A script is there to be unloaded: its shutdown function is called, if it has one, and when it
was destroyed the host is told. -/
structure Unloads (e : Engine) (s : Script) : Prop where
  registered : e.script? s.id = some s
  called : ∀ function, s.shutdown? = some function → e.shut s =
    ((e.updateCore (·.inform ("unloading script \"" ++ s.name ++ "\""))).invoke s.id .integer
      function []).1
  told : (e.unload s.id).1.core.events =
    ((e.shut s).destroyScript s.id).core.events.push (farewell s)

private theorem unloads_of_registered {e : Engine} {s : Script}
    (registered : e.script? s.id = some s) :
    e.Unloads s where
  registered := registered
  called function named := by rw [shut, shutDown, named]
  told := events_unload registered

/-- In the course of a history a script is unloaded. -/
def UnloadedIn (a : Engine) (turns : List Turn) (c : Engine) (s : Script) : Prop :=
  ∃ before later b, turns = before ++ .went s :: later ∧ a.History before b ∧ b.Unloads s ∧
    (b.unload s.id).1.History later c

/-- What came in the course of a history is there at its end or was unloaded. -/
theorem History.there_or_unloaded {a c : Engine} {turns : List Turn} (h : a.History turns c)
    (settled : a.Settled) {s : Script} (came : .came s ∈ turns) :
    s ∈ c.scripts ∨ a.UnloadedIn turns c s := by
  have there := (h.accounts settled).scripts
  have known : s ∈ a.scripts ∨ .came s ∈ turns := .inr came
  rcases Turn.mem_foldl_after_or_went known with stays | went
  · rw [there]
    exact .inl stays
  · obtain ⟨before, later, b, split, earlier, registered, rest⟩ := h.exists_unload went
    exact .inr ⟨before, later, b, split, earlier, unloads_of_registered registered, rest⟩

private theorem closed_of_close (e : Engine) : e.close.closed = true := by
  cases closed : e.closed with
  | true => rwa [close_of_closed closed]
  | false =>
    rw [close, if_neg (Bool.eq_false_iff.mp closed)]

/-- A close that is the first one leaves no script. -/
theorem scripts_close {e : Engine} (h : e.Settled) (opened : e.closed = false) :
    e.close.scripts = [] := by
  obtain ⟨emptied, -, empty, eq⟩ := close_of_emptied h opened
  rw [eq]
  exact empty

/-- When an engine is closed for the last time, every script that was ever loaded is unloaded, but
for those that were loaded after an earlier close and are still there: these stay, and so do their
contexts. Without an earlier close none stays; with one, the last one does nothing. -/
theorem close_unloads {options : Options} {license : String} {files : FileTree}
    {environment : Environment} {budget : Nat} {e : Engine}
    (h : (new options license files environment budget).Evolves e) :
    ∃ turns, (new options license files environment budget).History turns e.close ∧
      e.close.core.sent = turns.map Turn.signal ∧
      (∀ s, .came s ∈ turns → s ∈ e.close.scripts ∨
        (new options license files environment budget).UnloadedIn turns e.close s) ∧
      e.close.core.created = e.close.core.destroyed + e.close.scripts.length ∧
      (e.closed = false → e.close.scripts = []) ∧
      (e.closed = true → e.close = e) ∧
      ∃ before later b, turns = before ++ later ∧
        (new options license files environment budget).History before b ∧
        b.closed = true ∧ b.scripts = [] ∧ b.History later e.close ∧
        ∀ s ∈ e.close.scripts, .came s ∈ later := by
  have settled := settled_new options license files environment budget
  obtain ⟨turns, history⟩ := settled.history (h.perform .close)
  have history : (new options license files environment budget).History turns e.close := history
  have accounts := history.accounts settled
  refine ⟨turns, history, accounts.sent, fun s came => history.there_or_unloaded settled came,
    accounts.settled.live, scripts_close (settled.evolves h), close_of_closed, ?_⟩
  obtain ⟨before, later, b, split, earlier, closed, empty, rest⟩ :=
    history.exists_close settled rfl e.closed_of_close
  refine ⟨before, later, b, split, earlier, closed, empty, rest, ?_⟩
  intro s stays
  have left := (rest.accounts (earlier.accounts settled).settled).scripts
  rw [empty] at left
  rw [left] at stays
  rcases Turn.mem_of_mem_foldl_after stays with nowhere | came
  · cases nowhere
  · exact came

/-- The case of a script that puts up resistance. -/
theorem close_unloads_stubborn :
    stubborn.closed = false ∧ stubborn.close.scripts = [] ∧
      stubborn.close.core.created = stubborn.close.core.destroyed := by
  have opened : stubborn.closed = false := bare.closed_perform nofun
  have evolves : bare.Evolves stubborn := Evolves.refl.perform _
  obtain ⟨turns, -, -, -, live, empty, -⟩ := close_unloads evolves
  have none_left := empty opened
  rw [none_left, List.length_nil, Nat.add_zero] at live
  exact ⟨opened, none_left, live⟩

/-- An engine with a script that was loaded after it was closed. -/
def outlived : Engine :=
  (bare.perform .close).perform (.load "s.lua" (some
    "weechat.register('s', '', '', '', '', 'bye', '')
function bye() print('bye') end"))

/-- That engine comes about by a close and a load. -/
theorem evolves_outlived : bare.Evolves outlived := (Evolves.refl.perform _).perform _

set_option maxRecDepth 100000 in
/-- A script that was loaded after a close is not unloaded by the last one: its shutdown function is
not called, no signal is sent and its context stays. -/
theorem close_leaves_latecomer :
    bare.Evolves outlived ∧ outlived.scripts.map Script.shutdown? = [some "bye"] ∧
      outlived.close.scripts = outlived.scripts ∧
      outlived.close.core.events = outlived.core.events ∧
      (Signal.scriptUnloaded.name, "s.lua") ∉ outlived.close.core.sent ∧
      outlived.close.core.created ≠ outlived.close.core.destroyed := by
  refine ⟨evolves_outlived, ?_⟩
  decide +kernel

end LuaHost.Engine
