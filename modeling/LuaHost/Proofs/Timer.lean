import LuaHost.Timer
import Mathlib.Data.List.Induction
import Mathlib.Data.List.Sort

/-!
# Timers over a history of calls

A timer is pending just if nothing has happened to it since the call that armed it: its kind was
neither armed again nor cancelled, the queue was not cleared, and nothing was taken at a time when
the timer was due. The queue stands in the order of arming, and what is taken comes in the order of
time.
-/

namespace LuaHost

/-- What is asked of a queue of timers. -/
inductive TimerCall where
  | arm (kind : RequestKind) (now delay : Nat)
  | cancel (kind : RequestKind)
  | clear
  | takeReady (now : Nat)

namespace TimerCall

/-- A call that arms a timer. -/
def isArm : TimerCall → Bool
  | .arm .. => true
  | _ => false

/-- The timer that a call arms under a number. -/
def timer? (number : Nat) : TimerCall → Option Timer
  | .arm kind now delay => some ⟨number, kind, now + delay⟩
  | _ => none

/-- A call after which a timer is no longer pending. -/
def Drops (t : Timer) : TimerCall → Prop
  | .arm kind _ _ => t.kind = kind
  | .cancel kind => t.kind = kind
  | .clear => True
  | .takeReady now => t.due ≤ now

/-- A history of calls armed a timer, and no later call dropped it. Timers are numbered by the calls
that arm them. -/
def Leaves (calls : List TimerCall) (t : Timer) : Prop :=
  ∃ before now delay after, calls = before ++ .arm t.kind now delay :: after ∧
    t.due = now + delay ∧ t.id = before.countP isArm + 1 ∧ ∀ call ∈ after, ¬call.Drops t

private theorem timer?_eq_some_iff {call : TimerCall} {number : Nat} {t : Timer} :
    call.timer? number = some t ↔
      ∃ now delay, call = .arm t.kind now delay ∧ t.due = now + delay ∧ t.id = number := by
  constructor
  · intro armed
    cases call with
    | arm kind now delay =>
      obtain rfl := Option.some.inj armed
      exact ⟨now, delay, rfl, rfl, rfl⟩
    | _ => cases armed
  · rintro ⟨now, delay, rfl, due, rfl⟩
    rw [timer?, ← due]

/-- One more call drops some of the timers that were left, and may arm one. -/
theorem leaves_concat {calls : List TimerCall} {call : TimerCall} {t : Timer} :
    Leaves (calls ++ [call]) t ↔
      Leaves calls t ∧ ¬call.Drops t ∨ call.timer? (calls.countP isArm + 1) = some t := by
  rw [timer?_eq_some_iff]
  constructor
  · rintro ⟨before, now, delay, after, history, due, number, kept⟩
    rcases List.eq_nil_or_concat after with rfl | ⟨after, last, rfl⟩
    · obtain ⟨rfl, same⟩ := List.append_inj' history rfl
      exact .inr ⟨now, delay, List.singleton_inj.mp same, due, number⟩
    · rw [List.concat_eq_append] at history kept
      rw [← List.cons_append, ← List.append_assoc] at history
      obtain ⟨rfl, same⟩ := List.append_inj' history rfl
      obtain rfl := List.singleton_inj.mp same
      rw [List.forall_mem_append, List.forall_mem_singleton] at kept
      exact .inl ⟨⟨before, now, delay, after, rfl, due, number, kept.1⟩, kept.2⟩
  · rintro (⟨⟨before, now, delay, after, rfl, due, number, kept⟩, stays⟩ |
      ⟨now, delay, rfl, due, number⟩)
    · refine ⟨before, now, delay, after ++ [call], by simp, due, number, ?_⟩
      intro later mem
      rcases List.mem_append.mp mem with mem | mem
      · exact kept later mem
      · exact List.mem_singleton.mp mem ▸ stays
    · exact ⟨calls, now, delay, [], rfl, due, number, nofun⟩

end TimerCall

namespace TimerQueue

open TimerCall

/-- The queue after a call. -/
def after (q : TimerQueue) : TimerCall → TimerQueue
  | .arm kind now delay => q.arm kind (now + delay)
  | .cancel kind => q.cancel kind
  | .clear => q.clear
  | .takeReady now => (q.takeReady now).2

/-- The queue after a history of calls. -/
def run (calls : List TimerCall) : TimerQueue := calls.foldl after empty

/-- The numbers that the calls of a history give to the timers they arm. -/
def numbers (q : TimerQueue) : List TimerCall → List Nat
  | [] => []
  | call :: calls => (if call.isArm then [q.nextId] else []) ++ numbers (q.after call) calls

private theorem run_concat (calls : List TimerCall) (call : TimerCall) :
    run (calls ++ [call]) = (run calls).after call := by
  simp [run]

/-! ## Numbers -/

private theorem nextId_after (q : TimerQueue) (call : TimerCall) :
    (q.after call).nextId = q.nextId + if call.isArm then 1 else 0 := by
  cases call <;> rfl

private theorem nextId_run (calls : List TimerCall) :
    (run calls).nextId = calls.countP isArm + 1 := by
  induction calls using List.reverseRecOn with
  | nil => rfl
  | append_singleton calls call ih =>
    rw [run_concat, nextId_after, ih, List.countP_append, List.countP_singleton]
    omega

/-- Every number follows the one before it. -/
theorem numbers_eq (q : TimerQueue) (calls : List TimerCall) :
    q.numbers calls = List.range' q.nextId (calls.countP isArm) := by
  induction calls generalizing q with
  | nil => rfl
  | cons call calls ih =>
    rw [numbers, ih, nextId_after, List.countP_cons]
    cases call.isArm <;> simp [List.range'_succ]

/-! ## Pending timers -/

/-- What is pending after a call. -/
theorem mem_after {q : TimerQueue} {call : TimerCall} {t : Timer} :
    t ∈ (q.after call).timers ↔
      t ∈ q.timers ∧ ¬call.Drops t ∨ call.timer? q.nextId = some t := by
  cases call with
  | arm kind now delay => simp [after, arm, cancel, Drops, timer?, @eq_comm _ t]
  | cancel kind => simp [after, cancel, Drops, timer?]
  | clear => simp [after, clear, Drops, timer?]
  | takeReady now => simp [after, takeReady, Drops, timer?]

private theorem mem_run_iff (calls : List TimerCall) (t : Timer) :
    t ∈ (run calls).timers ↔ Leaves calls t := by
  induction calls using List.reverseRecOn with
  | nil => simp [run, empty, Leaves]
  | append_singleton calls call ih =>
    rw [run_concat, mem_after, ih, nextId_run, leaves_concat]

/-- The timers stand in the order of their numbers, one of a kind, and none has a number that is
still to be given. -/
structure InOrder (q : TimerQueue) : Prop where
  pairwise : q.timers.Pairwise fun t u => t.kind ≠ u.kind ∧ t.id < u.id
  lt_nextId : ∀ t ∈ q.timers, t.id < q.nextId

/-- Timers that are left out disturb no order. -/
theorem InOrder.filter {q : TimerQueue} (h : q.InOrder) (p : Timer → Bool) :
    InOrder { q with timers := q.timers.filter p } where
  pairwise := h.pairwise.filter p
  lt_nextId := fun t mem => h.lt_nextId t (List.mem_of_mem_filter mem)

private theorem InOrder.arm {q : TimerQueue} (h : q.InOrder) (kind : RequestKind) (due : Nat) :
    (q.arm kind due).InOrder := by
  have others : (q.cancel kind).InOrder := h.filter _
  constructor
  · apply List.pairwise_append.mpr
    refine ⟨others.pairwise, List.pairwise_singleton .., ?_⟩
    intro t mem u new
    obtain rfl := List.mem_singleton.mp new
    have other : t.kind ≠ kind := of_decide_eq_true (List.mem_filter.mp mem).2
    exact ⟨other, others.lt_nextId t mem⟩
  · intro t mem
    rcases List.mem_append.mp mem with mem | new
    · exact Nat.lt_succ_of_lt (others.lt_nextId t mem)
    · obtain rfl := List.mem_singleton.mp new
      exact Nat.lt_succ_self _

private theorem InOrder.after {q : TimerQueue} (h : q.InOrder) (call : TimerCall) :
    (q.after call).InOrder := by
  cases call with
  | arm kind now delay => exact h.arm kind (now + delay)
  | cancel kind => exact h.filter _
  | clear => exact ⟨List.Pairwise.nil, nofun⟩
  | takeReady now => exact h.filter _

private theorem inOrder_run (calls : List TimerCall) : (run calls).InOrder := by
  induction calls using List.reverseRecOn with
  | nil => exact ⟨List.Pairwise.nil, nofun⟩
  | append_singleton calls call ih =>
    rw [run_concat]
    exact ih.after call

/-- The next wake-up is the soonest time at which a pending timer is due. -/
theorem nextDue_eq_some_iff {q : TimerQueue} {due : Nat} :
    q.nextDue = some due ↔ (∃ t ∈ q.timers, t.due = due) ∧ ∀ t ∈ q.timers, due ≤ t.due := by
  rw [nextDue, List.min?_eq_some_iff]
  simp

/-! ## Taking the ready timers -/

private theorem insertByDue_eq_orderedInsert (t : Timer) (ts : List Timer) :
    insertByDue t ts = ts.orderedInsert (·.due ≤ ·.due) t := by
  induction ts with
  | nil => rfl
  | cons u us ih => rw [insertByDue, List.orderedInsert_cons, ih]

private theorem sortByDue_eq_insertionSort (ts : List Timer) :
    sortByDue ts = ts.insertionSort (·.due ≤ ·.due) := by
  induction ts with
  | nil => rfl
  | cons t ts ih =>
    rw [List.insertionSort_cons, ← ih, ← insertByDue_eq_orderedInsert]
    rfl

private theorem mem_insertByDue {t u : Timer} {ts : List Timer} :
    u ∈ insertByDue t ts ↔ u = t ∨ u ∈ ts := by
  rw [insertByDue_eq_orderedInsert, List.mem_orderedInsert]

private theorem mem_sortByDue {t : Timer} {ts : List Timer} : t ∈ sortByDue ts ↔ t ∈ ts := by
  rw [sortByDue_eq_insertionSort, List.mem_insertionSort]

/-- One timer is taken before another: it is due sooner, or at the same time and was armed first. -/
def Sooner (t u : Timer) : Prop := t.due < u.due ∨ (t.due = u.due ∧ t.id < u.id)

/-- A timer that was armed before all others finds its place among them. -/
theorem pairwise_insertByDue {t : Timer} {ts : List Timer} (first : ∀ u ∈ ts, t.id < u.id)
    (h : ts.Pairwise Sooner) : (insertByDue t ts).Pairwise Sooner := by
  induction ts with
  | nil => exact List.pairwise_singleton ..
  | cons u us ih =>
    obtain ⟨head, rest⟩ := List.pairwise_cons.mp h
    unfold insertByDue
    split
    · next le =>
      apply List.Pairwise.cons _ h
      intro v mem
      have before := first v mem
      rcases List.mem_cons.mp mem with rfl | mem
      · unfold Sooner
        omega
      · have later := head v mem
        unfold Sooner at later ⊢
        omega
    · next gt =>
      apply List.Pairwise.cons _ (ih (fun v mem => first v (List.mem_cons_of_mem u mem)) rest)
      intro v mem
      rcases mem_insertByDue.mp mem with rfl | mem
      · exact .inl (Nat.lt_of_not_le gt)
      · exact head v mem

private theorem pairwise_sortByDue {ts : List Timer} (h : ts.Pairwise (·.id < ·.id)) :
    (sortByDue ts).Pairwise Sooner := by
  induction ts with
  | nil => exact List.Pairwise.nil
  | cons t ts ih =>
    obtain ⟨first, rest⟩ := List.pairwise_cons.mp h
    apply pairwise_insertByDue _ (ih rest)
    intro u mem
    exact first u (mem_sortByDue.mp mem)

/-- The timers that are taken are those that are due. -/
theorem mem_takeReady {q : TimerQueue} {now : Nat} {t : Timer} :
    t ∈ (q.takeReady now).1 ↔ t ∈ q.timers ∧ t.due ≤ now := by
  rw [takeReady, mem_sortByDue, List.mem_filter, decide_eq_true_iff]

/-- What is taken comes in the order of time, and of arming where it was due at one time. -/
theorem InOrder.pairwise_takeReady {q : TimerQueue} (h : q.InOrder) (now : Nat) :
    (q.takeReady now).1.Pairwise Sooner :=
  pairwise_sortByDue ((h.pairwise.imp And.right).filter _)

/-- Whatever was asked of a queue before, the pending timers are those that were armed last for
their kinds and not dropped since. No kind has two; they stand in the order of their numbers, which
count the calls that arm and so fit 32 bits where these are few enough. The next wake-up is the
least due time. Taking the ready timers returns those that are due, soonest first, and leaves the
others as they stand. -/
theorem serves_history (calls : List TimerCall) :
    (∀ t, t ∈ (run calls).timers ↔ Leaves calls t) ∧
    (run calls).timers.Pairwise (fun t u => t.kind ≠ u.kind ∧ t.id < u.id) ∧
    empty.numbers calls = List.range' 1 (calls.countP isArm) ∧
    (calls.countP isArm < UInt32.size - 1 → (run calls).nextId < UInt32.size) ∧
    (∀ due, (run calls).nextDue = some due ↔
      (∃ t ∈ (run calls).timers, t.due = due) ∧ ∀ t ∈ (run calls).timers, due ≤ t.due) ∧
    ∀ now,
      (∀ t, t ∈ ((run calls).takeReady now).1 ↔ t ∈ (run calls).timers ∧ t.due ≤ now) ∧
      ((run calls).takeReady now).1.Pairwise Sooner ∧
      ((run calls).takeReady now).2.timers = (run calls).timers.filter (now < ·.due) := by
  have ordered := inOrder_run calls
  refine ⟨mem_run_iff calls, ordered.pairwise, numbers_eq empty calls, ?_,
    fun due => nextDue_eq_some_iff, fun now => ⟨fun t => mem_takeReady, ?_, ?_⟩⟩
  · intro few
    rw [nextId_run]
    omega
  · exact ordered.pairwise_takeReady now
  · simp only [takeReady, Nat.not_le]

/-- Three kinds, one of them armed twice. -/
def busy : List TimerCall :=
  [.arm .install 0 9, .arm .remove 0 3, .takeReady 2, .arm .autoload 2 1, .cancel .install,
    .arm .install 2 1]

/-- The case of three kinds, one of them armed twice. -/
theorem serves_history_busy :
    busy.countP isArm < UInt32.size - 1 ∧ (run busy).nextId < UInt32.size ∧
      Leaves busy ⟨4, .install, 3⟩ ∧ (run busy).nextDue = some 3 ∧
      ((run busy).takeReady 3).1.map Timer.id = [2, 3, 4] ∧
      ((run busy).takeReady 3).1.Pairwise Sooner := by
  obtain ⟨pending, -, -, fits, soonest, takes⟩ := serves_history busy
  have few : busy.countP isArm < UInt32.size - 1 := by decide
  refine ⟨few, fits few, (pending _).mp ?_, (soonest 3).mpr ?_, ?_, (takes 3).2.1⟩ <;> decide

end TimerQueue

end LuaHost
