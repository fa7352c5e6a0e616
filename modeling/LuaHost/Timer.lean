import LuaHost.Request

/-!
# One-shot timers

At most one timer is pending per kind of request. Arming a timer replaces the pending one of
its kind and gives it a number that is never used again; taking the ready ones removes every
timer that is due, soonest first, and timers due at the same time in the order they were armed.
-/

namespace LuaHost

/-- A pending timer. Times count milliseconds on the clock of the engine. -/
structure Timer where
  id : Nat
  kind : RequestKind
  due : Nat
  deriving DecidableEq

/-- The pending timers in the order they were armed. -/
structure TimerQueue where
  timers : List Timer
  nextId : Nat
  deriving DecidableEq

namespace TimerQueue

/-- No timer is pending; the first one armed has number 1. -/
def empty : TimerQueue := ⟨[], 1⟩

/-- Drop the timer of a kind. -/
def cancel (q : TimerQueue) (kind : RequestKind) : TimerQueue :=
  { q with timers := q.timers.filter (·.kind ≠ kind) }

/-- Whether a timer of the kind is pending. -/
def isArmed (q : TimerQueue) (kind : RequestKind) : Bool :=
  q.timers.any (·.kind = kind)

/-- Arm the timer of a kind, in place of a pending one. -/
def arm (q : TimerQueue) (kind : RequestKind) (due : Nat) : TimerQueue :=
  { timers := (q.cancel kind).timers ++ [⟨q.nextId, kind, due⟩], nextId := q.nextId + 1 }

/-- Drop every timer. Numbers are not used again. -/
def clear (q : TimerQueue) : TimerQueue := { q with timers := [] }

/-- Put a timer in front of the first one that is not due before it. -/
def insertByDue (t : Timer) : List Timer → List Timer
  | [] => [t]
  | u :: us => if t.due ≤ u.due then t :: u :: us else u :: insertByDue t us

/-- Sort timers by the time they are due, keeping the order of those due together. -/
def sortByDue (ts : List Timer) : List Timer := ts.foldr insertByDue []

/-- The timers due at a time, soonest first, and the queue without them. -/
def takeReady (q : TimerQueue) (now : Nat) : List Timer × TimerQueue :=
  (sortByDue (q.timers.filter (·.due ≤ now)),
    { q with timers := q.timers.filter (fun t => ¬ t.due ≤ now) })

/-- The soonest time at which a timer is due. -/
def nextDue (q : TimerQueue) : Option Nat := (q.timers.map Timer.due).min?

/-- Number of pending timers. -/
def size (q : TimerQueue) : Nat := q.timers.length

/-- Arming a kind arms that kind and disarms none. -/
@[simp] theorem isArmed_arm (q : TimerQueue) (kind k : RequestKind) (due : Nat) :
    (q.arm kind due).isArmed k = (decide (k = kind) || q.isArmed k) := by
  by_cases h : k = kind
  · subst h; simp [arm, isArmed]
  · have h' : ¬ kind = k := fun e => h e.symm
    simp only [arm, isArmed, cancel, List.any_append, List.any_filter, List.any_cons,
      List.any_nil, h, h', decide_false, Bool.or_false, Bool.false_or]
    congr 1
    funext t
    by_cases ht : t.kind = k
    · subst ht; simp [h]
    · simp [ht]

end TimerQueue

end LuaHost
