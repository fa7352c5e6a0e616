import LuaHost.Proofs.Core.Dialogue

/-!
# What a machine asks next

A machine takes silent steps until it asks the host for something or is finished. What it comes to
then tells how its dialogue goes on, whatever the engine that answers it is like.
-/

namespace LuaHost

namespace Lua.Machine

/-- What a machine comes to by silent steps: its next request or its end, if it gets there within a
number of steps. -/
def comesTo? : Nat → Machine → Option Step
  | 0, _ => none
  | n + 1, m =>
    match m.step with
    | .running m => m.comesTo? n
    | s => some s

/-- The machine is finished within a number of steps and asks nothing. -/
def endsSilently (n : Nat) (m : Machine) : Bool :=
  match m.comesTo? n with
  | some (.finished _ _) => true
  | _ => false

/-- The registration that a machine asks for, if it asks for nothing else, whatever the answer. -/
def soleRegistration? (n : Nat) (m : Machine) : Option Registration :=
  match m.comesTo? n with
  | some (.asking (.register about) m) =>
    if [true, false].all fun b => (m.resume (.accepted b)).endsSilently n then some about else none
  | _ => none

end Lua.Machine

namespace Core

open Lua (HostCall Machine)

/-- A machine that comes to a request asks it first, unless the budget ends before. -/
theorem dialogue_of_asking {n : Nat} {m m' : Machine} {call : HostCall}
    (h : m.comesTo? n = some (.asking call m')) (budget : Nat) (c : Core) :
    dialogue budget c m = [] ∨ ∃ rest, dialogue budget c m = (call, (c.answer call).2) ::
      dialogue rest (c.answer call).1 (m'.resume (c.answer call).2) := by
  induction n generalizing m budget with
  | zero => cases h
  | succ n ih =>
    cases budget with
    | zero => exact .inl rfl
    | succ budget =>
      cases step : m.step with
      | running next =>
        simp only [Machine.comesTo?, step] at h
        simp only [dialogue, dialogueWith, step]
        exact ih h budget
      | asking first next =>
        simp only [Machine.comesTo?, step, Option.some.injEq, Lua.Step.asking.injEq] at h
        obtain ⟨rfl, rfl⟩ := h
        simp only [dialogue, dialogueWith, step]
        exact .inr ⟨budget, rfl⟩
      | finished heap outcome => simp [Machine.comesTo?, step] at h

/-- A machine that is finished by silent steps asks nothing. -/
theorem dialogue_of_endsSilently {n : Nat} {m : Machine} (h : m.endsSilently n) (budget : Nat)
    (c : Core) : dialogue budget c m = [] := by
  induction n generalizing m budget with
  | zero => cases h
  | succ n ih =>
    cases budget with
    | zero => rfl
    | succ budget =>
      cases step : m.step with
      | running next =>
        simp only [Machine.endsSilently, Machine.comesTo?, step] at h
        simp only [dialogue, dialogueWith, step]
        exact ih h budget
      | asking first next => simp [Machine.endsSilently, Machine.comesTo?, step] at h
      | finished heap outcome => simp only [dialogue, dialogueWith, step]

/-- A machine that asks for a registration and for nothing else registers nothing else. -/
theorem accepted_of_soleRegistration? {n : Nat} {m : Machine} {about : Registration}
    (h : m.soleRegistration? n = some about) (budget : Nat) (c : Core) :
    ∀ r ∈ accepted (dialogue budget c m), r = about := by
  unfold Machine.soleRegistration? at h
  split at h
  · next asked m' comes =>
    split at h
    · next both =>
      obtain rfl := Option.some.inj h
      have silent (b : Bool) (rest : Nat) (c : Core) :
          dialogue rest c (m'.resume (.accepted b)) = [] := by
        refine dialogue_of_endsSilently (List.all_eq_true.mp both b ?_) rest c
        cases b <;> simp
      rcases dialogue_of_asking comes budget c with nothing | ⟨rest, talk⟩
      · rw [nothing]
        exact List.forall_mem_nil _
      · have reply : (c.answer (.register asked)).2 = .accepted (c.register asked).2 := rfl
        rw [talk, reply, silent]
        cases (c.register asked).2
        · exact List.forall_mem_nil _
        · exact List.forall_mem_singleton.mpr rfl
    · cases h
  · cases h

end Core

end LuaHost
