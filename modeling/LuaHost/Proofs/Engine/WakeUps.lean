import LuaHost.Proofs.Engine.Requests
import LuaHost.Proofs.Timer

/-!
# Waiting requests have a timer

A request arms the timer of its kind, and no more than one timer of a kind is ever pending. When
ready timers are taken, their kinds are owed a run until their batches have been taken up, one after
the other; requests that come meanwhile arm timers of their own. Between two operations no kind
is owed anything, so whatever is waiting will be run.
-/

namespace LuaHost

namespace TimerQueue

/-- The number of pending timers of a kind. -/
def count (q : TimerQueue) (kind : RequestKind) : Nat := q.timers.countP (·.kind = kind)

/-- Arming a timer leaves one of its kind and all of the other kinds. -/
theorem count_arm (q : TimerQueue) (kind k : RequestKind) (due : Nat) :
    (q.arm kind due).count k = if k = kind then 1 else q.count k := by
  unfold count arm cancel
  rw [List.countP_append, List.countP_filter, List.countP_singleton]
  by_cases same : k = kind
  · subst same
    have none : q.timers.countP (fun t => decide (t.kind = k) && decide (t.kind ≠ k)) = 0 := by
      rw [List.countP_eq_zero]
      intro t _
      simp
    rw [none]
    simp
  · have others : q.timers.countP (fun t => decide (t.kind = k) && decide (t.kind ≠ kind)) =
        q.timers.countP (·.kind = k) := by
      apply List.countP_congr
      intro t _
      by_cases of_kind : t.kind = k <;> simp [of_kind, same]
    rw [others]
    simp [same, Ne.symm same]

private theorem count_takeReady_le (q : TimerQueue) (now : Nat) (kind : RequestKind) :
    (q.takeReady now).2.count kind ≤ q.count kind :=
  List.filter_sublist.countP_le

/-- A kind of which no timer is ready keeps its timers. -/
theorem count_takeReady {q : TimerQueue} {now : Nat} {kind : RequestKind}
    (h : kind ∉ (q.takeReady now).1.map Timer.kind) :
    (q.takeReady now).2.count kind = q.count kind := by
  unfold count takeReady
  rw [List.countP_filter]
  apply List.countP_congr
  intro t mem
  by_cases of_kind : t.kind = kind
  · have late : ¬t.due ≤ now := by
      intro due
      apply h
      exact List.mem_map.mpr ⟨t, mem_takeReady.mpr ⟨mem, due⟩, of_kind⟩
    simp [of_kind, late]
  · simp [of_kind]

end TimerQueue

namespace Core

/-- No kind has more than one timer, and every kind of which requests are waiting has one, apart
from those that are owed a run. -/
structure Awake (owed : List RequestKind) (c : Core) : Prop where
  single : ∀ kind, c.timers.count kind ≤ 1
  armed : ∀ kind, kind ∉ owed → c.requests.pending kind ≠ "" → c.timers.count kind = 1

namespace Awake

variable {owed : List RequestKind} {c c' : Core}

private theorem congr (h : c.Awake owed) (requests : c'.requests = c.requests)
    (timers : c'.timers = c.timers) : c'.Awake owed where
  single := timers ▸ h.single
  armed := by
    rw [requests, timers]
    exact h.armed

private theorem owe (h : c.Awake owed) (kind : RequestKind) : c.Awake (kind :: owed) where
  single := h.single
  armed := fun k free => h.armed k fun mem => free (List.mem_cons_of_mem kind mem)

/-- A request arms the timer of its kind. -/
theorem request (h : c.Awake owed) (kind : RequestKind) (item : String) :
    (c.request kind item).Awake owed := by
  have timers (k : RequestKind) : (c.request kind item).timers.count k =
      if k = kind then 1 else c.timers.count k := TimerQueue.count_arm _ _ _ _
  constructor
  · intro k
    rw [timers]
    split
    · exact Nat.le_refl 1
    · exact h.single k
  · intro k free waiting
    rw [timers]
    split
    · rfl
    · next other =>
      apply h.armed k free
      have same : (c.request kind item).requests.pending k = c.requests.pending k := by
        simp [Core.request, Core.note, other]
      rwa [same] at waiting

private theorem step (h : c.Awake owed) (s : c.Step c') : c'.Awake owed := by
  cases s with
  | aside _ requests timers _ => exact h.congr requests timers
  | write text => exact h.congr (by rw [write_eq]) (by rw [write_eq])
  | flush => exact h.congr (by rw [flush_eq]) (by rw [flush_eq])
  | request kind item => exact h.request kind item
  | evaluation => exact h.congr rfl rfl
  | takeBuffer => exact h.congr rfl rfl

/-- A kind whose list was taken is owed nothing. -/
theorem take {kind : RequestKind} (h : c.Awake (kind :: owed)) :
    { c with requests := (c.requests.take kind).2 }.Awake owed where
  single := h.single
  armed := by
    intro k free waiting
    have list : (c.requests.take kind).2.pending k =
        if k = kind then "" else c.requests.pending k := RequestQueue.pending_take _ _ _
    by_cases same : k = kind
    · rw [if_pos same] at list
      exact absurd list waiting
    · rw [if_neg same] at list
      apply h.armed k
      · intro mem
        rcases List.mem_cons.mp mem with eq | mem
        · exact same eq
        · exact free mem
      · exact list ▸ waiting

end Awake

end Core

namespace Engine

variable {e : Engine}

private theorem awake_runRequests {kind : RequestKind} {owed : List RequestKind}
    (h : e.core.Awake (kind :: owed)) : (e.runRequests kind).core.Awake owed := by
  rcases e.runRequests_cases kind with ⟨-, same⟩ | proceeds
  · rw [same]
    exact h.take
  · exact proceeds.core.keeps (fun s h => h.step s) (h.take.congr rfl rfl)

/-- Kinds that are owed a run are owed nothing when they have had it. -/
theorem awake_foldl_runRequests (kinds : List RequestKind) (h : e.core.Awake kinds) :
    (kinds.foldl runRequests e).core.Awake [] := by
  induction kinds generalizing e with
  | nil => exact h
  | cons kind kinds ih => exact ih (awake_runRequests h)

/-- The kinds of the timers that are taken are owed a run. -/
theorem awake_withoutReady (h : e.core.Awake []) (now : Nat) :
    (e.withoutReady now).core.Awake (e.readyKinds now) where
  single := by
    intro kind
    exact Nat.le_trans (TimerQueue.count_takeReady_le _ now kind) (h.single kind)
  armed := by
    intro kind free waiting
    have kept : (e.withoutReady now).core.timers.count kind = e.core.timers.count kind :=
      TimerQueue.count_takeReady free
    rw [kept]
    exact h.armed kind List.not_mem_nil waiting

private theorem awake_close (h : e.core.Awake []) : e.close.core.Awake [] := by
  by_cases closed : e.closed = true
  · rw [close_of_closed closed]
    exact h
  · have requests : e.close.core.requests = .empty := by
      unfold close
      rw [if_neg closed]
    have timers : e.close.core.timers.timers = [] := by
      unfold close
      rw [if_neg closed]
      rfl
    constructor
    · intro kind
      rw [TimerQueue.count, timers]
      exact Nat.zero_le 1
    · intro kind _ waiting
      rw [requests] at waiting
      cases kind <;> exact absurd rfl waiting

private theorem awake_perform (h : e.core.Awake []) (op : Operation) :
    (e.perform op).core.Awake [] := by
  by_cases takes : op.Takes
  · cases op with
    | runTimers now => exact awake_foldl_runRequests _ (awake_withoutReady h now)
    | runRequests kind => exact awake_runRequests (h.owe kind)
    | close => exact awake_close h
    | _ => exact takes.elim
  · exact (e.proceeds_perform takes).core.keeps (fun s h => h.step s) h

private theorem Reachable.awake (h : e.Reachable) : e.core.Awake [] := by
  obtain ⟨options, license, files, environment, budget, evolves⟩ := h
  induction evolves with
  | refl =>
    constructor
    · intro kind
      exact Nat.zero_le 1
    · intro kind _ waiting
      cases kind <;> exact absurd rfl waiting
  | perform _ op ih => exact awake_perform ih op
  | outside _ files environment clock ih => exact ih.congr rfl rfl

/-- Between two operations every kind of which requests are waiting has one timer, and no kind has
more than one. -/
theorem waiting_armed (h : e.Reachable) (kind : RequestKind) :
    (e.core.requests.pending kind ≠ "" → e.core.timers.count kind = 1) ∧
      e.core.timers.count kind ≤ 1 :=
  ⟨h.awake.armed kind List.not_mem_nil, h.awake.single kind⟩

private theorem reachable_parting : parting.Reachable := reachable_bare.evolves evolves_parting

set_option maxRecDepth 100000 in
/-- What was asked for while the timers were run has a timer of its own. -/
theorem waiting_armed_parting :
    parting.core.requests.pending .remove = "-a c.lua" ∧
      parting.core.timers.count .remove = 1 := by
  have waiting : parting.core.requests.pending .remove = "-a c.lua" := by decide +kernel
  refine ⟨waiting, (waiting_armed reachable_parting .remove).1 ?_⟩
  rw [waiting]
  decide

end Engine

end LuaHost
