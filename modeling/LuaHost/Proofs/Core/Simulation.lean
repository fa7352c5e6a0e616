import LuaHost.Core.Run
import LuaHost.Proofs.Core.Lines

/-!
# What scripts cannot see

No answer to a script depends on what was printed, sent to the host or logged, on what was asked
for or on the quiet mode. So a relation between two cores that differ in nothing else is kept by
whatever scripts do, if it is kept when both cores print the same, and the scripts cannot tell which
of the two they run in.
-/

namespace LuaHost

/-! ### Events -/

/-- The event hands output over. -/
def Event.IsDelivery (event : Event) : Prop := ∃ d : Delivery, event = d.event

/-- What the engine tells about loads and unloads unless it is quiet. -/
inductive Notice where
  | loading (filename : String)
  | registered (about : Registration)
  | unloading (name : String)
  | unloaded (name : String)

namespace Notice

/-- The words of a notice. -/
def message : Notice → String
  | loading filename => "loading script \"" ++ filename ++ "\""
  | registered about =>
    "registered script \"" ++ about.name ++ "\", version " ++ about.version ++ " (" ++
      about.description ++ ")"
  | unloading name => "unloading script \"" ++ name ++ "\""
  | unloaded name => "script \"" ++ name ++ "\" unloaded"

/-- How a notice begins. -/
def openings : List String :=
  ["loading script \"", "registered script \"", "unloading script \"", "script \""]

private theorem begins (n : Notice) :
    ∃ opening ∈ openings, ∃ rest, n.message = opening ++ rest := by
  cases n with
  | loading filename =>
    refine ⟨"loading script \"", by simp [openings], filename ++ "\"", ?_⟩
    show "loading script \"" ++ filename ++ "\"" = _
    rw [String.append_assoc]
  | registered about =>
    refine ⟨"registered script \"", by simp [openings], about.name ++ "\", version " ++
      about.version ++ " (" ++ about.description ++ ")", ?_⟩
    show "registered script \"" ++ about.name ++ "\", version " ++ about.version ++ " (" ++
      about.description ++ ")" = _
    simp only [String.append_assoc]
  | unloading name =>
    refine ⟨"unloading script \"", by simp [openings], name ++ "\"", ?_⟩
    show "unloading script \"" ++ name ++ "\"" = _
    rw [String.append_assoc]
  | unloaded name =>
    refine ⟨"script \"", by simp [openings], name ++ "\" unloaded", ?_⟩
    show "script \"" ++ name ++ "\" unloaded" = _
    rw [String.append_assoc]

/-- The line on the core buffer that a notice is. -/
def event (n : Notice) : Event := .print none (engineName ++ ": " ++ n.message)

end Notice

namespace Event

/-- The event prints a notice on the core buffer. -/
def isNotice : Event → Bool
  | .print none line =>
    Notice.openings.any fun opening => (engineName ++ ": " ++ opening).toList.isPrefixOf line.toList
  | _ => false

/-- Every notice is recognised by how it begins. -/
theorem isNotice_event (n : Notice) : n.event.isNotice = true := by
  obtain ⟨opening, mem, rest, split⟩ := n.begins
  refine List.any_eq_true.mpr ⟨opening, mem, List.isPrefixOf_iff_prefix.mpr ?_⟩
  have whole : (engineName ++ ": " ++ n.message).toList =
      (engineName ++ ": " ++ opening).toList ++ rest.toList := by
    rw [split, ← String.append_assoc, ← String.toList_append]
  rw [whole]
  exact List.prefix_append _ _

/-- Output that is delivered is not taken for a notice. -/
theorem isNotice_delivery (d : Delivery) : d.event.isNotice = false := by
  cases d <;>
    simp [isNotice, Delivery.event, Notice.openings, engineName, String.toList_append,
      List.isPrefixOf]

/-- No notice hands output over. -/
theorem not_isDelivery_notice (n : Notice) : ¬n.event.IsDelivery := by
  rintro ⟨d, same⟩
  have notice := isNotice_event n
  rw [same, isNotice_delivery] at notice
  cases notice

/-- The event neither hands output over nor is a notice. -/
structure IsPlain (event : Event) : Prop where
  not_delivery : ¬event.IsDelivery
  not_notice : event.isNotice = false

/-- A line that does not begin as what the engine says does. -/
theorem isPlain_print {line : String}
    (h : (engineName ++ ": ").toList.isPrefixOf line.toList = false) :
    (Event.print none line).IsPlain where
  not_delivery := by
    rintro ⟨d, hd⟩
    cases d with
    | input | print => cases hd
    | log script text =>
      rw [(Event.print.inj hd).2] at h
      simp [engineName, String.toList_append, List.isPrefixOf] at h
  not_notice := by
    simp only [isNotice, List.any_eq_false]
    intro opening _ begins
    obtain ⟨rest, split⟩ := List.isPrefixOf_iff_prefix.mp begins
    have said : (engineName ++ ": ").toList.isPrefixOf line.toList = true := by
      have said : (engineName ++ ": " ++ opening).toList =
          (engineName ++ ": ").toList ++ opening.toList := String.toList_append
      rw [← split, said, List.append_assoc]
      exact List.isPrefixOf_iff_prefix.mpr (List.prefix_append _ _)
    rw [h] at said
    cases said

private theorem isPlain_complaint (message : String) :
    (Event.print none (errorMark ++ engineName ++ ": " ++ message)).IsPlain :=
  isPlain_print (by simp [errorMark, engineName, String.toList_append, List.isPrefixOf])

/-- What the engine says is plain unless it begins as a notice does or speaks of standard
streams. -/
theorem isPlain_say {message : String}
    (h : message.toList.head? ∉ [some 's', some 'l', some 'r', some 'u']) :
    (Event.print none (engineName ++ ": " ++ message)).IsPlain where
  not_delivery := by
    rintro ⟨d, hd⟩
    cases d with
    | input | print => cases hd
    | log script text =>
      have same := congrArg String.toList (Event.print.inj hd).2
      have : message.toList.head? = some 's' := by
        simp [engineName] at same
        simp [same]
      exact h (this ▸ List.mem_cons_self)
  not_notice := by
    cases chars : message.toList with
    | nil => simp [isNotice, Notice.openings, engineName, List.isPrefixOf, chars]
    | cons first rest =>
      rw [chars] at h
      have other : first ≠ 's' ∧ first ≠ 'l' ∧ first ≠ 'r' ∧ first ≠ 'u' := by simpa using h
      simp [isNotice, Notice.openings, engineName, List.isPrefixOf, chars, other.1.symm,
        other.2.1.symm, other.2.2.1.symm, other.2.2.2.symm]

/-- A signal neither delivers output nor is a notice. -/
theorem isPlain_signal (sender : Sender) (name data : String) :
    (@Event.signal sender name data).IsPlain where
  not_delivery := by
    rintro ⟨d, hd⟩
    cases d <;> cases hd
  not_notice := rfl

/-- Attaching buffers neither delivers output nor is a notice. -/
theorem isPlain_callbacks (script : String) : (Event.callbacks script).IsPlain where
  not_delivery := by
    rintro ⟨d, hd⟩
    cases d <;> cases hd
  not_notice := rfl

end Event

namespace Core

open Lua (HostCall Reply Machine)

/-! ### Relations that scripts keep -/

/-- The core without what was printed, sent, logged and asked for. -/
def muted (c : Core) : Core :=
  { c with
    output := .empty, events := #[], log := #[], requests := .empty, timers := .empty,
    notes := #[] }

/-- The core as scripts see it. -/
def seen (c : Core) : Core := { c.muted with quiet := false }

/-- The core without the quiet mode and what was sent. -/
def hushed (c : Core) : Core := { c with quiet := false, events := #[] }

/-- Cores that scripts see alike have one script active. -/
theorem activeName?_eq_of_muted {c d : Core} (h : c.muted = d.muted) :
    c.activeName? = d.activeName? := by
  show c.muted.activeName? = d.muted.activeName?
  rw [h]

/-- A change that has nothing to do with what is printed and sent. -/
structure Silent (f : Core → Core) : Prop where
  muted : ∀ c, (f c).muted = (f c.muted).muted := by intro c; rfl
  output : ∀ c, (f c).output = c.output := by intro c; rfl
  events : ∀ c, (f c).events = c.events := by intro c; rfl

/-- A silent change that has nothing to do with the quiet mode and the options either. -/
structure Blind (f : Core → Core) : Prop extends Silent f where
  hushed : ∀ c, (f c).hushed = (f c.hushed).hushed := by intro c; rfl
  quiet : ∀ c, (f c).quiet = c.quiet := by intro c; rfl
  options : ∀ c, (f c).options = c.options := by intro c; rfl

/-- What is silent does the same to cores that differ in output and events. -/
theorem Silent.congr {f : Core → Core} (silent : Silent f) {c d : Core}
    (h : c.muted = d.muted) : (f c).muted = (f d).muted := by
  rw [silent.muted c, h, ← silent.muted d]

/-- What is blind does the same to cores that differ in the quiet mode and in events. -/
theorem Blind.congr {f : Core → Core} (blind : Blind f) {c d : Core}
    (h : c.hushed = d.hushed) : (f c).hushed = (f d).hushed := by
  rw [blind.hushed c, h, ← blind.hushed d]

/-- A relation between cores that scripts cannot tell apart, which is kept when both print the
same and are both told to inform. -/
structure Simulation (R : Core → Core → Prop) : Prop where
  seen {c d : Core} : R c d → c.seen = d.seen
  silent {c d : Core} {f : Core → Core} : R c d → Blind f → R (f c) (f d)
  emit {c d : Core} {event : Event} : R c d → event.IsPlain → R (c.emit event) (d.emit event)
  inform {c d : Core} (n : Notice) : R c d → R (c.inform n.message) (d.inform n.message)
  push {c d : Core} (text : String) : R c d → R (c.push text) (d.push text)
  flush {c d : Core} : R c d → R c.flush d.flush
  hush {c d : Core} : R c d → R { c with quiet := true } { d with quiet := true }
  putBack {c d c₀ d₀ : Core} : R c₀ d₀ → R c d →
    R { c with quiet := c₀.quiet } { d with quiet := d₀.quiet }

/-- A relation between cores that differ in what was printed, sent, logged and asked for, which is
kept when both print the same. -/
structure MutedSimulation (R : Core → Core → Prop) : Prop where
  muted {c d : Core} : R c d → c.muted = d.muted
  silent {c d : Core} {f : Core → Core} : R c d → Silent f → R (f c) (f d)
  emit {c d : Core} {event : Event} : R c d → ¬event.IsDelivery → R (c.emit event) (d.emit event)
  push {c d : Core} (text : String) : R c d → R (c.push text) (d.push text)
  flush {c d : Core} : R c d → R c.flush d.flush

/-- With the same quiet mode on both sides the same notices are shown. -/
theorem MutedSimulation.simulation {R : Core → Core → Prop} (S : MutedSimulation R) :
    Simulation R where
  seen h := congrArg (fun c : Core => { c with quiet := false }) (S.muted h)
  silent h blind := S.silent h blind.toSilent
  emit h plain := S.emit h plain.not_delivery
  inform {c d} n h := by
    have verbose : c.isVerbose = d.isVerbose := by
      show c.muted.isVerbose = d.muted.isVerbose
      rw [S.muted h]
    unfold Core.inform
    rw [verbose]
    split
    · exact S.emit h (Event.not_isDelivery_notice n)
    · exact h
  push text h := S.push text h
  flush h := S.flush h
  hush h := S.silent h (f := fun c => { c with quiet := true }) {}
  putBack {c d c₀ d₀} h₀ h := by
    have mode : d₀.quiet = c₀.quiet := by
      show d₀.muted.quiet = c₀.muted.quiet
      rw [S.muted h₀]
    rw [mode]
    exact S.silent h (f := fun c => { c with quiet := c₀.quiet }) {}

namespace Simulation

variable {R : Core → Core → Prop} (S : Simulation R) {c d : Core}
include S

/-- What scripts see is the same on both sides. -/
theorem same {α : Type} (f : Core → α) (h : R c d) (blind : ∀ c : Core, f c = f c.seen) :
    f c = f d := by
  rw [blind c, S.seen h, ← blind d]

/-- Both cores have a script activated. -/
theorem activate (h : R c d) (script : Option ScriptId) :
    R (c.activate script) (d.activate script) :=
  S.silent h (f := (·.activate script)) {}

/-- Both cores get the active script of before back. -/
theorem restore (h : R c d) (previous : Option ScriptId) :
    R (c.restore previous) (d.restore previous) :=
  S.silent h (f := (·.restore previous)) {}

/-- Both cores take a request. -/
theorem request (h : R c d) (kind : RequestKind) (item : String) :
    R (c.request kind item) (d.request kind item) :=
  S.silent h (f := (·.request kind item)) {}

/-- Both cores log a dump. -/
theorem dump (h : R c d) : R c.dump d.dump :=
  S.silent h {}

/-- Both cores report an error. -/
theorem complain (h : R c d) (message : String) : R (c.complain message) (d.complain message) :=
  S.emit h (Event.isPlain_complaint message)

private theorem write (h : R c d) (text : String) : R (c.write text) (d.write text) :=
  rel_write (R := R) S.push S.flush h text

/-- Both cores report why a script failed. -/
theorem report (h : R c d) (failure : String) : R (c.report failure) (d.report failure) :=
  S.write h _

private theorem warnLicense (h : R c d) (about : Registration) :
    R (c.warnLicense about) (d.warnLicense about) := by
  have options : c.options = d.options := S.same Core.options h fun _ => rfl
  have license : c.license = d.license := S.same Core.license h fun _ => rfl
  unfold Core.warnLicense
  rw [options, license]
  split
  · exact S.emit h (Event.isPlain_say (by simp))
  · exact h

private theorem register (h : R c d) (about : Registration) :
    R (c.register about).1 (d.register about).1 ∧ (c.register about).2 = (d.register about).2 := by
  have vetted : c.vet about = d.vet about := S.same (·.vet about) h fun _ => rfl
  unfold Core.register
  rw [← vetted]
  split
  · exact ⟨S.complain h _, rfl⟩
  · next loading _ =>
    have enlisted : R (c.enlist loading about) (d.enlist loading about) :=
      S.silent h (f := (·.enlist loading about)) {}
    exact ⟨S.inform (.registered about) (S.warnLicense enlisted about), rfl⟩

/-- Both cores take a signal, or neither does. -/
theorem handleSignal (h : R c d) (name data : String) :
    Option.Rel R (c.handleSignal? name data) (d.handleSignal? name data) := by
  unfold Core.handleSignal?
  split
  · exact .none
  · split
    · exact .some (S.request h _ _)
    · split
      · exact .some (S.dump h)
      · exact .none

/-- Both sides give the same answer. -/
theorem answer (h : R c d) (call : HostCall) :
    R (c.answer call).1 (d.answer call).1 ∧ (c.answer call).2 = (d.answer call).2 := by
  cases call with
  | write text => exact ⟨S.write h text, rfl⟩
  | register about =>
    obtain ⟨registered, accepted⟩ := S.register h about
    exact ⟨registered, congrArg Reply.accepted accepted⟩
  | sendSignal name data =>
    have handled := S.handleSignal h name data
    simp only [Core.answer]
    generalize c.handleSignal? name data = c' at handled
    generalize d.handleSignal? name data = d' at handled
    cases handled with
    | some related => exact ⟨related, rfl⟩
    | none => exact ⟨S.emit h (Event.isPlain_signal _ _ _), rfl⟩

/-- A machine that runs on either side goes the same way. -/
theorem runWith (step : Machine → Lua.Step) (budget : Nat) (h : R c d) (m : Machine) :
    R (c.runWith step budget m).1 (d.runWith step budget m).1 ∧
      (c.runWith step budget m).2 = (d.runWith step budget m).2 := by
  induction budget generalizing c d m with
  | zero => exact ⟨h, rfl⟩
  | succ budget ih =>
    unfold Core.runWith
    split
    · exact ih h _
    · next call m _ =>
      obtain ⟨related, reply⟩ := S.answer h call
      dsimp only
      rw [← reply]
      exact ih related _
    · exact ⟨h, rfl⟩

end Simulation

end Core

end LuaHost
