import LuaHost.Proofs.Core.Simulation

/-!
# Cores in different quiet modes

Nothing that scripts do depends on the quiet mode. Of two cores that differ in it and in what they
told the host, the quiet one tells the same as the other but for the notices. Where both are in one
mode they tell the same.
-/

namespace LuaHost.Core

/-- What does not depend on the quiet mode nor on what was sent. -/
theorem eq_of_hushed {α : Type} {c d : Core} (f : Core → α) (h : c.hushed = d.hushed)
    (blind : ∀ c : Core, f c = f c.hushed) : f c = f d := by
  rw [blind c, h, ← blind d]

/-- Cores that differ in nothing else. -/
theorem eq_withQuiet_of_hushed {c d : Core} (h : c.hushed = d.hushed) :
    d = { c with quiet := d.quiet, events := d.events } :=
  congrArg (fun x : Core => { x with quiet := d.quiet, events := d.events }) h.symm

/-- A relation between cores that differ in the quiet mode and in what was sent, so that they print
the same and have the same requests waiting. -/
structure Mirror (R : Core → Core → Prop) : Prop extends Simulation R where
  hushed {c d : Core} : R c d → c.hushed = d.hushed
  setOutput {c d : Core} (output : Output) : R c d → R { c with output } { d with output }
  setOptions {c d : Core} {f : Options → Options} : R c d → (∀ o, (f o).debug = o.debug) →
    R { c with options := f c.options } { d with options := f d.options }

/-! ### Cores that tell the same but for some events -/

/-- Of what the one tells the other one tells what is to be kept; the rest are notices. -/
structure Tells (keep : Event → Bool) (before before' after after' : Array Event)
    (told : List Event) : Prop where
  left : after = before ++ told.toArray
  right : after' = before' ++ (told.filter keep).toArray
  notices : ∀ event ∈ told, keep event = true ∨ ∃ n : Notice, event = n.event

/-- Cores that differ in the quiet mode and in what they told since some time: the second one left
out notices that are not to be kept. -/
structure Parallel (keep : Event → Bool) (before before' : Array Event) (c d : Core) : Prop where
  hushed : c.hushed = d.hushed
  told : ∃ told : List Event, Tells keep before before' c.events d.events told

namespace Parallel

variable {keep : Event → Bool} {before before' : Array Event} {c d : Core}

/-- Two cores that differ in the quiet mode and in their events have told the same since now. -/
theorem refl (h : c.hushed = d.hushed) : Parallel keep c.events d.events c d :=
  ⟨h, [], Array.append_empty.symm, Array.append_empty.symm, List.forall_mem_nil _⟩

private theorem seen (h : Parallel keep before before' c d) : c.seen = d.seen :=
  eq_of_hushed Core.seen h.hushed fun _ => rfl

/-- What depends neither on the quiet mode nor on the events, and tells nothing, keeps two cores
parallel. -/
theorem silent (h : Parallel keep before before' c d) {f : Core → Core} (blind : Blind f) :
    Parallel keep before before' (f c) (f d) := by
  refine ⟨blind.congr h.hushed, ?_⟩
  rw [blind.events, blind.events]
  exact h.told

/-- A notice on one side, which the other leaves out. -/
theorem emit_left (h : Parallel keep before before' c d) {n : Notice}
    (left_out : keep n.event = false) : Parallel keep before before' (c.emit n.event) d := by
  obtain ⟨told, left, right, notices⟩ := h.told
  refine ⟨h.hushed, told ++ [n.event], by simp [emit, left], by simp [right, left_out], ?_⟩
  exact List.forall_mem_append.mpr ⟨notices, List.forall_mem_singleton.mpr (.inr ⟨n, rfl⟩)⟩

private theorem emit (h : Parallel keep before before' c d) {event : Event}
    (kept : keep event = true) :
    Parallel keep before before' (c.emit event) (d.emit event) := by
  obtain ⟨told, left, right, notices⟩ := h.told
  refine ⟨h.hushed, told ++ [event], by simp [Core.emit, left], by simp [Core.emit, right, kept],
    ?_⟩
  exact List.forall_mem_append.mpr ⟨notices, List.forall_mem_singleton.mpr (.inl kept)⟩

private theorem withOutput (h : Parallel keep before before' c d) (output : Output) :
    Parallel keep before before' { c with output } { d with output } :=
  ⟨congrArg (fun c : Core => { c with output }) h.hushed, h.told⟩

private theorem withOptions (h : Parallel keep before before' c d) (f : Options → Options) :
    Parallel keep before before' { c with options := f c.options }
      { d with options := f d.options } :=
  ⟨congrArg (fun c : Core => { c with options := f c.options }) h.hushed, h.told⟩

/-- The quiet modes may be set at will. -/
theorem withQuiet (h : Parallel keep before before' c d) (quiet quiet' : Bool) :
    Parallel keep before before' { c with quiet } { d with quiet := quiet' } :=
  ⟨h.hushed, h.told⟩

private theorem push (h : Parallel keep before before' c d) (text : String) :
    Parallel keep before before' (c.push text) (d.push text) := by
  have output : c.output = d.output := eq_of_hushed Core.output h.hushed fun _ => rfl
  unfold Core.push
  rw [output]
  exact h.withOutput (d.output.push text)

private theorem flush (h : Parallel keep before before' c d)
    (kept : ∀ d : Delivery, keep d.event = true) :
    Parallel keep before before' c.flush d.flush := by
  have output : c.output = d.output := eq_of_hushed Core.output h.hushed fun _ => rfl
  have name : c.activeName? = d.activeName? :=
    eq_of_hushed Core.activeName? h.hushed fun _ => rfl
  cases hd : d.output.delivery? d.activeName? with
  | none =>
    rw [flush_of_none (by rw [output, name, hd]), flush_of_none hd]
    exact h
  | some handed =>
    rw [flush_of_some (by rw [output, name, hd]), flush_of_some hd, output]
    exact (h.withOutput { d.output with buffer := "" }).emit (kept handed)

end Parallel

/-! ### One quiet mode -/

/-- Cores in one quiet mode that tell the same. -/
structure Even (before before' : Array Event) (c d : Core) : Prop
    extends Parallel (fun _ => true) before before' c d where
  quiet : c.quiet = d.quiet

/-- Scripts cannot tell two cores apart that are in one quiet mode and tell the same. -/
theorem simulation_even (before before' : Array Event) : Simulation (Even before before') where
  seen h := h.seen
  silent h blind := ⟨h.silent blind, by rw [blind.quiet, blind.quiet, h.quiet]⟩
  emit h _ := ⟨h.emit rfl, h.quiet⟩
  inform {c d} n h := by
    have options : c.options = d.options := eq_of_hushed Core.options h.hushed fun _ => rfl
    have verbose : c.isVerbose = d.isVerbose := by
      rw [isVerbose, isVerbose, h.quiet, options]
    unfold Core.inform
    rw [verbose]
    split
    · exact ⟨h.emit rfl, h.quiet⟩
    · exact h
  push text h := ⟨h.push text, h.quiet⟩
  flush {c d} h := by
    have left : c.flush.quiet = c.quiet := by rw [flush_eq]
    have right : d.flush.quiet = d.quiet := by rw [flush_eq]
    exact ⟨h.toParallel.flush fun _ => rfl, by rw [left, right, h.quiet]⟩
  hush h := ⟨h.withQuiet true true, rfl⟩
  putBack h₀ h := ⟨h.withQuiet _ _, h₀.quiet⟩

/-! ### Two quiet modes -/

/-- Cores of which the second one is quiet and tells what the first one tells but for the
notices. -/
structure Hushed (before before' : Array Event) (c d : Core) : Prop
    extends Parallel (fun event => !event.isNotice) before before' c d where
  quiet : d.quiet = true
  debug : d.options.debug < 2

/-- Scripts cannot tell a quiet core from one that is not. -/
theorem mirror_hushed (before before' : Array Event) : Mirror (Hushed before before') where
  seen h := h.seen
  silent h blind :=
    ⟨h.silent blind, (blind.quiet _).trans h.quiet, by rw [blind.options]; exact h.debug⟩
  emit h plain := ⟨h.emit (by rw [plain.not_notice]; rfl), h.quiet, h.debug⟩
  inform {c d} n h := by
    have silent : d.inform n.message = d := by
      have mute : d.isVerbose = false := by
        simp only [isVerbose, h.quiet, Bool.not_true, Bool.false_or, decide_eq_false_iff_not]
        exact Nat.not_le_of_lt h.debug
      rw [Core.inform, mute]
      rfl
    rw [silent]
    unfold Core.inform
    split
    · exact ⟨h.emit_left (n := n) (by rw [Event.isNotice_event]; rfl), h.quiet, h.debug⟩
    · exact h
  push text h := ⟨h.push text, h.quiet, h.debug⟩
  flush {c d} h := by
    have parallel := h.toParallel.flush fun handed => by rw [Event.isNotice_delivery]; rfl
    have quiet : d.flush.quiet = d.quiet := by rw [flush_eq]
    have options : d.flush.options = d.options := by rw [flush_eq]
    exact ⟨parallel, quiet.trans h.quiet, by rw [options]; exact h.debug⟩
  hush h := ⟨h.withQuiet true true, rfl, h.debug⟩
  putBack h₀ h := ⟨h.withQuiet _ _, h₀.quiet, h.debug⟩
  hushed h := h.hushed
  setOutput output h := ⟨h.withOutput output, h.quiet, h.debug⟩
  setOptions h same := ⟨h.withOptions _, h.quiet, by rw [same]; exact h.debug⟩

end LuaHost.Core
