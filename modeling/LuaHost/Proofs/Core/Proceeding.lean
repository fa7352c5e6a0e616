import LuaHost.Proofs.Core.Dialogue
import Mathlib.Logic.Relation

/-!
# How an engine proceeds

An operation that takes no waiting request and no timer away works in steps of a few kinds: text is
written or delivered, a request arrives, an evaluation begins or ends, or something happens that
has nothing to do with output and requests. What every step keeps holds between any two of them,
also in the middle of an operation.
-/

namespace LuaHost.Core

open Lua (HostCall Reply)

/-- One step of an engine at work. -/
inductive Step : Core → Core → Prop where
  /-- Output, requests and timers are left alone. -/
  | aside {c c' : Core} (output : c'.output = c.output) (requests : c'.requests = c.requests)
      (timers : c'.timers = c.timers) (notes : c'.notes = c.notes) : Step c c'
  | write (c : Core) (text : String) : Step c (c.write text)
  | flush (c : Core) : Step c c.flush
  | request (c : Core) (kind : RequestKind) (item : String) : Step c (c.request kind item)
  /-- An evaluation begins, or the one in progress ends. -/
  | evaluation (c : Core) (evaluation : Option Evaluation) :
      Step c { c with output := { c.output with evaluation } }
  /-- What an evaluation kept is taken as its result. -/
  | takeBuffer (c : Core) : Step c { c with output := c.output.takeBuffer.2 }

/-- Any number of steps. -/
def Proceeds : Core → Core → Prop := Relation.ReflTransGen Step

namespace Proceeds

variable {a b c : Core}

/-- No step need be taken. -/
theorem refl (c : Core) : c.Proceeds c := Relation.ReflTransGen.refl

/-- One way goes on where the other one ends. -/
theorem trans (h : a.Proceeds b) (h' : b.Proceeds c) : a.Proceeds c :=
  Relation.ReflTransGen.trans h h'

/-- One step is a way. -/
theorem step (s : a.Step b) : a.Proceeds b := .single s

/-- What leaves output, requests, timers and the log alone is a step. -/
theorem aside (output : b.output = a.output) (requests : b.requests = a.requests)
    (timers : b.timers = a.timers) (notes : b.notes = a.notes) : a.Proceeds b :=
  .step (.aside output requests timers notes)

/-- What one step keeps is kept over all. -/
theorem keeps {P : Core → Prop} (keep : ∀ {c c' : Core}, c.Step c' → P c → P c')
    (h : a.Proceeds b) (start : P a) : P b := by
  induction h with
  | refl => exact start
  | tail _ s ih => exact keep s ih

end Proceeds

private theorem proceeds_say (c : Core) (message : String) : c.Proceeds (c.say message) :=
  .aside rfl rfl rfl rfl

/-- Reporting an error is a step of an engine at work. -/
theorem proceeds_complain (c : Core) (message : String) : c.Proceeds (c.complain message) :=
  .aside rfl rfl rfl rfl

/-- A notice is a step, be it shown or not. -/
theorem proceeds_inform (c : Core) (message : String) : c.Proceeds (c.inform message) := by
  unfold inform
  split
  · exact c.proceeds_say message
  · exact .refl c

/-- A flush is a step. -/
theorem proceeds_flush (c : Core) : c.Proceeds c.flush := .step (.flush c)

/-- Reporting why a script failed is a step. -/
theorem proceeds_report (c : Core) (failure : String) : c.Proceeds (c.report failure) :=
  .step (.write c _)

private theorem proceeds_warnLicense (c : Core) (about : Registration) :
    c.Proceeds (c.warnLicense about) := by
  unfold warnLicense
  split
  · exact c.proceeds_say _
  · exact .refl c

private theorem proceeds_register (c : Core) (about : Registration) :
    c.Proceeds (c.register about).1 := by
  unfold register
  split
  · exact c.proceeds_complain _
  · next loading _ =>
    have enlisted : c.Proceeds (c.enlist loading about) := .aside rfl rfl rfl rfl
    have warned := enlisted.trans (proceeds_warnLicense _ about)
    exact warned.trans (proceeds_inform _ _)

private theorem proceeds_handleSignal {c c' : Core} {name data : String}
    (h : c.handleSignal? name data = some c') : c.Proceeds c' := by
  unfold handleSignal? at h
  split at h
  · cases h
  · split at h
    · next kind _ =>
      cases h
      exact .step (.request c kind data)
    · split at h
      · cases h
        exact .aside rfl rfl rfl rfl
      · cases h

/-- An engine that answers a script proceeds. -/
theorem proceeds_answer (c : Core) (call : HostCall) : c.Proceeds (c.answer call).1 := by
  cases call with
  | write text => exact .step (.write c text)
  | register about => exact c.proceeds_register about
  | sendSignal name data =>
    simp only [answer]
    split
    · next h => exact proceeds_handleSignal h
    · exact .aside rfl rfl rfl rfl

/-- A dialogue is made of steps. -/
theorem Talks.proceeds {c c' : Core} {talk : List (HostCall × Reply)} (h : c.Talks talk c') :
    c.Proceeds c' := by
  induction h with
  | silent c => exact .refl c
  | @ask c _ _ call _ ih => exact (c.proceeds_answer call).trans ih

end LuaHost.Core
