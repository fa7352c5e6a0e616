import LuaHost.Proofs.Engine.Closing

/-!
# Unloading everything

To unload everything, the oldest script is unloaded for as long as there is one. Code of the scripts
runs in between, so that the loop ends at all rests on two facts: no unload brings a script in, and
the unload of a registered script goes through. A close does the same with the scratch script first.
-/

namespace LuaHost.Engine

/-! ### The loop -/

/-- What unloading the oldest script again and again comes to, with the numbers of the scripts that
are unloaded. It ends when there is no script left, or with the first unload that fails. -/
inductive Drains : Engine → List ScriptId → Engine → Prop where
  | empty {e : Engine} (nobody : e.core.registry.first? = none) : Drains e [] e
  | stuck {e e' : Engine} {id : ScriptId} {failure : Failure}
      (oldest : e.core.registry.first? = some id) (fails : e.unload id = (e', .error failure)) :
      Drains e [] e'
  | unload {a b c : Engine} {id : ScriptId} {ids : List ScriptId}
      (oldest : a.core.registry.first? = some id) (goes : a.unload id = (b, .ok ()))
      (rest : Drains b ids c) : Drains a (id :: ids) c

/-- Scripts are unloaded one after the other, and every unload goes through. -/
inductive InTurn : Engine → List Script → Engine → Prop where
  | nobody (e : Engine) : InTurn e [] e
  | unload {a b c : Engine} {s : Script} {ss : List Script} (registered : a.script? s.id = some s)
      (goes : a.unload s.id = (b, .ok ())) (rest : InTurn b ss c) : InTurn a (s :: ss) c

/-- The loop has one course. -/
theorem Drains.unique {e a b : Engine} {ids ids' : List ScriptId} (h : e.Drains ids a)
    (h' : e.Drains ids' b) : ids = ids' ∧ a = b := by
  induction h generalizing ids' with
  | empty nobody =>
    cases h' with
    | empty => exact ⟨rfl, rfl⟩
    | stuck oldest | unload oldest => cases nobody.symm.trans oldest
  | stuck oldest fails =>
    cases h' with
    | empty nobody => cases nobody.symm.trans oldest
    | stuck oldest' fails' =>
      cases oldest.symm.trans oldest'
      cases fails.symm.trans fails'
      exact ⟨rfl, rfl⟩
    | unload oldest' goes =>
      cases oldest.symm.trans oldest'
      cases fails.symm.trans goes
  | unload oldest goes _ ih =>
    cases h' with
    | empty nobody => cases nobody.symm.trans oldest
    | stuck oldest' fails =>
      cases oldest.symm.trans oldest'
      cases fails.symm.trans goes
    | unload oldest' goes' rest =>
      cases oldest.symm.trans oldest'
      cases goes.symm.trans goes'
      obtain ⟨rfl, rfl⟩ := ih rest
      exact ⟨rfl, rfl⟩

private theorem InTurn.history {e e' : Engine} {ss : List Script} (h : e.InTurn ss e') :
    e.History (ss.map .went) e' := by
  induction h with
  | nobody => exact .refl
  | @unload a b c s ss registered goes _ ih =>
    have first : a.History [.went s] b := by
      have one := History.single (.unload registered)
      rwa [goes] at one
    exact first.trans ih

/-- Unloading the oldest script as often as there are scripts is what the loop comes to, and it
takes every script in its turn. -/
theorem drains_unloadOldest {e : Engine} (h : e.Settled) {n : Nat} (size : e.scripts.length = n) :
    e.Drains (e.scripts.map Script.id) (unloadOldest n e) ∧
      e.InTurn e.scripts (unloadOldest n e) := by
  induction n generalizing e with
  | zero =>
    have nobody := List.eq_nil_of_length_eq_zero size
    have first : e.core.registry.first? = none := by
      show e.scripts.head?.map Script.id = none
      rw [nobody]
      rfl
    rw [nobody]
    exact ⟨.empty first, .nobody e⟩
  | succ n ih =>
    obtain ⟨s, rest, split⟩ := List.exists_cons_of_length_eq_add_one size
    obtain ⟨first, registered, e', goes, settled, left⟩ := unload_oldest h split
    rw [split] at size
    obtain ⟨drains, turns⟩ := ih settled (left ▸ Nat.succ.inj size)
    rw [left] at drains turns
    rw [unloadOldest, first]
    dsimp only
    rw [goes, split]
    exact ⟨.unload first goes drains, .unload registered goes turns⟩

private theorem drains_unloadAll {e : Engine} (h : e.Settled) :
    e.Drains (e.scripts.map Script.id) e.unloadAll ∧ e.InTurn e.scripts e.unloadAll :=
  drains_unloadOldest h rfl

/-! ### What is left -/

/-- The engine sent the signals about the unloads of some scripts in this order and no other, no
script is registered and no context is alive. -/
structure Emptied (e : Engine) (order : List Script) (e' : Engine) : Prop where
  sent : e'.core.sent =
    e.core.sent ++ order.map fun s => (Signal.scriptUnloaded.name, s.filename)
  scripts : e'.scripts = []
  contexts : e'.contexts = []
  live : e'.core.created = e'.core.destroyed

/-- In a history in which scripts only went, and all of them did, everything is emptied. -/
theorem History.emptied {e e' : Engine} {order : List Script} (settled : e.Settled)
    (h : e.History (order.map .went) e') (scripts : e'.scripts = []) : e.Emptied order e' := by
  have accounts := h.accounts settled
  refine ⟨?_, scripts, ?_, ?_⟩
  · rw [accounts.sent, List.map_map]
    rfl
  · have contexts := accounts.settled.contexts
    rw [scripts, List.map_nil] at contexts
    exact List.map_eq_nil_iff.mp contexts
  · have live := accounts.settled.live
    rwa [scripts, List.length_nil, Nat.add_zero] at live

/-- The order in which a close unloads the scripts: the scratch script comes first. -/
def closingOrder (e : Engine) : List Script :=
  (e.scratch.bind e.script?).toList ++ e.scripts.filter fun s => e.scratch ≠ some s.id

private theorem perm_closingOrder {e : Engine} (h : e.Settled) (known : e.ScratchKnown) :
    e.closingOrder.Perm e.scripts := by
  unfold closingOrder
  cases scratch : e.scratch with
  | none => simp
  | some id =>
    obtain ⟨s, mem, rfl, -⟩ := known id scratch
    have registered : e.script? s.id = some s :=
      (h.wellFormed.get?_eq_some_iff s.id s).mpr ⟨mem, rfl⟩
    have others := h.wellFormed.perm_remove registered
    rw [Registry.scripts_remove] at others
    simp only [Option.bind_some, registered, Option.toList_some, List.singleton_append, ne_eq,
      Option.some.injEq]
    refine (List.Perm.of_eq ?_).trans others.symm
    congr 1
    exact List.filter_congr fun t _ => by simp [eq_comm]

/-! ### Closing -/

/-- The unloads of a close that is the first one all go through, in the closing order, and leave no
script. -/
theorem close_in_turn {e : Engine} (h : e.Settled) (known : e.ScratchKnown)
    (opened : e.closed = false) :
    ∃ emptied, e.closing.InTurn e.closingOrder emptied ∧ emptied.scripts = [] ∧
      e.close = emptied.discarded := by
  have quiet := h.closing
  rw [close_eq opened, closingOrder]
  cases scratch : e.scratch with
  | none =>
    have order : e.scripts.filter (fun s => none ≠ some s.id) = e.closing.scripts :=
      List.filter_eq_self.mpr fun _ _ => rfl
    refine ⟨_, ?_, scripts_unloadAll quiet, rfl⟩
    rw [order]
    exact (drains_unloadAll quiet).2
  | some id =>
    obtain ⟨s, mem, rfl, -⟩ := known id scratch
    have registered : e.closing.script? s.id = some s :=
      (h.wellFormed.get?_eq_some_iff s.id s).mpr ⟨mem, rfl⟩
    have goes := (kept_unload quiet.closed quiet.activeKnown registered).1
    have settled := quiet.unload s.id
    have others : e.scripts.filter (fun t => some s.id ≠ some t.id) =
        (e.closing.unload s.id).1.scripts := by
      rw [scripts_unload quiet registered]
      exact List.filter_congr fun t _ => by simp [eq_comm]
    refine ⟨_, ?_, scripts_unloadAll settled, rfl⟩
    rw [others, Option.bind_some, show e.script? s.id = some s from registered]
    exact .unload registered (Prod.ext rfl goes) (drains_unloadAll settled).2

/-- When everything is unloaded, the loop ends and takes every script once, oldest first, whatever
their code does; nothing is left but the signals. A close that is the first one does the same with
the scratch script first, and leaves nothing that was asked for. A later one does nothing. -/
theorem unloadAll_empties {e : Engine} (h : e.Reachable) :
    (∀ ids e', e.Drains ids e' ↔ ids = e.scripts.map Script.id ∧ e' = e.unloadAll) ∧
      e.InTurn e.scripts e.unloadAll ∧ e.Emptied e.scripts e.unloadAll ∧
      (e.closed = false → e.closingOrder.Perm e.scripts ∧
        (∃ emptied, e.closing.InTurn e.closingOrder emptied ∧
          emptied.core.registry.first? = none ∧ e.close = emptied.discarded) ∧
        e.Emptied e.closingOrder e.close ∧
        (∀ kind, e.close.core.requests.pending kind = "") ∧ e.close.core.timers.timers = []) ∧
      (e.closed = true → e.close = e) := by
  have settled := h.settled
  obtain ⟨drains, turns⟩ := drains_unloadAll settled
  refine ⟨?_, turns, turns.history.emptied settled (scripts_unloadAll settled), ?_, close_of_closed⟩
  · intro ids e'
    constructor
    · intro course
      exact course.unique drains
    · rintro ⟨rfl, rfl⟩
      exact drains
  · intro opened
    obtain ⟨emptied, turns, nobody, eq⟩ := close_in_turn settled h.scratchKnown opened
    have first : emptied.core.registry.first? = none := by
      show emptied.scripts.head?.map Script.id = none
      rw [nobody]
      rfl
    have left := turns.history.emptied settled.closing nobody
    rw [eq]
    refine ⟨perm_closingOrder settled h.scratchKnown, ⟨emptied, turns, first, rfl⟩,
      ⟨left.sent, left.scripts, left.contexts, left.live⟩, ?_, rfl⟩
    intro kind
    cases kind <;> rfl

/-- An engine with a script whose shutdown function fails, and with a scratch script that was
kept. -/
def lodged : Engine :=
  ((bare.perform (.setKeepEvaluation true)).perform (.load "s.lua" (some
    "weechat.register('s','','','','','f','') function f() error() end"))).perform
      (.evaluateToText "")

private theorem reachable_lodged : lodged.Reachable :=
  ((reachable_bare.perform _).perform _).perform _

set_option maxRecDepth 100000 in
/-- The case of a script that fails to shut down and a scratch script that was kept. -/
theorem unloadAll_empties_lodged :
    lodged.closed = false ∧ lodged.Drains [⟨1⟩, ⟨2⟩] lodged.unloadAll ∧
      lodged.unloadAll.scripts = [] ∧ lodged.closingOrder.map Script.name = [scratchName, "s"] ∧
      lodged.close.scripts = [] ∧ ∀ kind, lodged.close.core.requests.pending kind = "" := by
  obtain ⟨opened, ids, order⟩ : lodged.closed = false ∧
      lodged.scripts.map Script.id = [⟨1⟩, ⟨2⟩] ∧
      lodged.closingOrder.map Script.name = [scratchName, "s"] := by
    decide +kernel
  obtain ⟨course, -, emptied, first, -⟩ := unloadAll_empties reachable_lodged
  obtain ⟨-, -, closed, requests, -⟩ := first opened
  exact ⟨opened, (course _ _).mpr ⟨ids.symm, rfl⟩, emptied.scripts, order, closed.scripts, requests⟩

/-- A script that was loaded after a close, and a request made after it, outlast the next one. -/
theorem close_again_empties_nothing :
    let e := outlived.perform (.request .remove "x.lua")
    e.Reachable ∧ e.scripts.length = 1 ∧ e.close.scripts = e.scripts ∧
      e.close.core.sent = e.core.sent ∧ e.close.core.requests.pending .remove = "x.lua" ∧
      e.close.core.timers.size = 1 := by
  refine ⟨(reachable_bare.evolves evolves_outlived).perform _, ?_⟩
  decide +kernel

end LuaHost.Engine
