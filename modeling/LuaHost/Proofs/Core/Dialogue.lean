import LuaHost.Core.Run
import LuaHost.Proofs.Core.Lines

/-!
# What running scripts can do to the engine

A run of a script is a dialogue: the script asks, the engine answers, and nothing else touches
the engine. Each answer either takes the script of a load in progress into the registry or leaves
everything but output, requests and the log as it was. By induction a whole run registers at most
one script, and none when no load waits for one.
-/

namespace LuaHost

/-- Every waiting list of one queue is that of another with requests appended, one after the
other. -/
def RequestQueue.AddedTo (q q' : RequestQueue) : Prop :=
  ∀ kind, ∃ items : List String, q'.pending kind = items.foldl appendRequest (q.pending kind)

namespace RequestQueue.AddedTo

/-- Nothing need be appended. -/
theorem refl (q : RequestQueue) : q.AddedTo q := fun _ => ⟨[], rfl⟩

/-- What is appended later goes behind what was appended first. -/
theorem trans {a b c : RequestQueue} (h : a.AddedTo b) (h' : b.AddedTo c) : a.AddedTo c := by
  intro kind
  obtain ⟨first, hf⟩ := h kind
  obtain ⟨rest, hr⟩ := h' kind
  refine ⟨first ++ rest, ?_⟩
  rw [List.foldl_append, ← hf, hr]

end RequestQueue.AddedTo

private theorem RequestQueue.addedTo_add (q : RequestQueue) (kind : RequestKind) (item : String) :
    q.AddedTo (q.add kind item) := by
  intro k
  by_cases same : k = kind
  · exact ⟨[item], by simp [same]⟩
  · exact ⟨[], by simp [same]⟩

/-- The name and the data of a signal that the engine sends on its own account. -/
def Event.own? : Event → Option (String × String)
  | @Event.signal .engine name data => some (name, data)
  | _ => none

namespace Core

open Lua (HostCall Reply Machine)

/-- The signals that the engine sent on its own account, in order. -/
def sent (c : Core) : List (String × String) := c.events.toList.filterMap Event.own?

/-- What a run of a machine by steps of a kind asks, with the answers. -/
def dialogueWith (step : Machine → Lua.Step) :
    (budget : Nat) → Core → Machine → List (HostCall × Reply)
  | 0, _, _ => []
  | budget + 1, c, m =>
    match step m with
    | .running m => dialogueWith step budget c m
    | .asking call m =>
      let (c, reply) := c.answer call
      (call, reply) :: dialogueWith step budget c (m.resume reply)
    | .finished _ _ => []

/-- What a run of a machine asks, with the answers. -/
def dialogue (budget : Nat) (c : Core) (m : Machine) : List (HostCall × Reply) :=
  dialogueWith Machine.step budget c m

/-- The registrations of a dialogue that were accepted. -/
def accepted (talk : List (HostCall × Reply)) : List Registration :=
  talk.filterMap fun
    | (.register about, .accepted true) => some about
    | _ => none

/-- A dialogue leads from one state of the engine to another. -/
inductive Talks : Core → List (HostCall × Reply) → Core → Prop where
  | silent (c : Core) : Talks c [] c
  | ask {c c' : Core} {talk : List (HostCall × Reply)} (call : HostCall) :
      Talks (c.answer call).1 talk c' → Talks c ((call, (c.answer call).2) :: talk) c'

/-- A run changes the engine through its dialogue only, whatever a step does. -/
theorem talks_runWith (step : Machine → Lua.Step) (budget : Nat) (c : Core) (m : Machine) :
    Talks c (dialogueWith step budget c m) (runWith step budget c m).1 := by
  induction budget generalizing c m with
  | zero => exact .silent c
  | succ budget ih =>
    cases h : step m with
    | running m =>
      simp only [dialogueWith, runWith, h]
      exact ih c m
    | asking call m =>
      simp only [dialogueWith, runWith, h]
      exact .ask call (ih _ _)
    | finished heap outcome =>
      simp only [dialogueWith, runWith, h]
      exact .silent c

/-- A run changes the core through its dialogue only. -/
theorem talks_run (budget : Nat) (c : Core) (m : Machine) :
    Talks c (dialogue budget c m) (run budget c m).1 :=
  talks_runWith Machine.step budget c m

/-! ### What stays -/

/-- All but output, timers and the log is as it was, requests were at most added, and the engine
sent no signal on its own account. -/
structure Kept (c c' : Core) : Prop where
  registry : c'.registry = c.registry
  active : c'.active = c.active
  evaluation : c'.output.evaluation = c.output.evaluation
  loading : c'.loading = c.loading
  requests : c.requests.AddedTo c'.requests
  quiet : c'.quiet = c.quiet
  options : c'.options = c.options
  clock : c'.clock = c.clock
  created : c'.created = c.created
  destroyed : c'.destroyed = c.destroyed
  license : c'.license = c.license
  sent : c'.sent = c.sent

namespace Kept

variable {a b c : Core}

/-- A core keeps itself. -/
theorem refl (c : Core) : c.Kept c :=
  ⟨rfl, rfl, rfl, rfl, .refl _, rfl, rfl, rfl, rfl, rfl, rfl, rfl⟩

/-- What is kept over two stretches is kept over both. -/
theorem trans (h : a.Kept b) (h' : b.Kept c) : a.Kept c where
  registry := h'.registry.trans h.registry
  active := h'.active.trans h.active
  evaluation := h'.evaluation.trans h.evaluation
  loading := h'.loading.trans h.loading
  requests := h.requests.trans h'.requests
  quiet := h'.quiet.trans h.quiet
  options := h'.options.trans h.options
  clock := h'.clock.trans h.clock
  created := h'.created.trans h.created
  destroyed := h'.destroyed.trans h.destroyed
  license := h'.license.trans h.license
  sent := h'.sent.trans h.sent

end Kept

/-- An event adds the signal it is, if the engine sent it on its own account. -/
theorem sent_emit (c : Core) (e : Event) : (c.emit e).sent = c.sent ++ e.own?.toList := by
  cases h : e.own? <;> simp [sent, emit, List.filterMap_append, h]

private theorem kept_emit (c : Core) {e : Event} (h : e.own? = none) : c.Kept (c.emit e) :=
  { Kept.refl c with sent := by rw [sent_emit, h]; simp }

/-- Printing a line keeps all but the events. -/
theorem kept_print (c : Core) (line : String) : c.Kept (c.print line) := c.kept_emit rfl

/-- Telling the host something keeps all but the events. -/
theorem kept_say (c : Core) (message : String) : c.Kept (c.say message) := c.kept_print _

/-- Reporting an error keeps all but the events. -/
theorem kept_complain (c : Core) (message : String) : c.Kept (c.complain message) :=
  c.kept_print _

/-- A notice keeps all but the events, be it shown or not. -/
theorem kept_inform (c : Core) (message : String) : c.Kept (c.inform message) := by
  unfold inform
  split
  · exact c.kept_say message
  · exact .refl c

private theorem kept_push (c : Core) (text : String) : c.Kept (c.push text) :=
  { Kept.refl c with evaluation := rfl }

private theorem own?_event (d : Delivery) : d.event.own? = none := by cases d <;> rfl

/-- Taking the buffered text leaves the evaluation in progress. -/
theorem evaluation_takeDelivery (o : Output) (script : Option String) :
    (o.takeDelivery script).2.evaluation = o.evaluation := by
  unfold Output.takeDelivery
  split <;> rfl

/-- A flush keeps all but the output and the events. -/
theorem kept_flush (c : Core) : c.Kept c.flush := by
  have he := evaluation_takeDelivery c.output c.activeName?
  unfold flush
  split
  · exact .refl c
  · next d output heq =>
    rw [heq] at he
    have first : c.Kept { c with output } := { Kept.refl c with evaluation := he }
    exact first.trans (kept_emit _ (own?_event d))

private theorem kept_write (c : Core) (text : String) : c.Kept (c.write text) :=
  rel_write (R := fun _ d => c.Kept d) (c := c) (fun _ kept => kept.trans (kept_push _ _))
    (fun kept => kept.trans (kept_flush _)) (.refl c) text

/-- Reporting why a script failed keeps all but the output and the events. -/
theorem kept_report (c : Core) (failure : String) : c.Kept (c.report failure) := c.kept_write _

/-- A dump keeps all but the log. -/
theorem kept_dump (c : Core) : c.Kept c.dump := { Kept.refl c with }

/-- A request is added to the list of its kind, and the rest is kept. -/
theorem kept_request (c : Core) (kind : RequestKind) (item : String) :
    c.Kept (c.request kind item) :=
  { Kept.refl c with requests := c.requests.addedTo_add kind item }

/-- A signal that the core takes is a request or asks for a dump. -/
theorem kept_handleSignal {c c' : Core} {name data : String}
    (h : c.handleSignal? name data = some c') : c.Kept c' := by
  unfold handleSignal? at h
  split at h
  · cases h
  · split at h
    · cases h; exact c.kept_request _ data
    · split at h
      · cases h; exact c.kept_dump
      · cases h

private theorem kept_warnLicense (c : Core) (about : Registration) :
    c.Kept (c.warnLicense about) := by
  unfold warnLicense
  split
  · exact c.kept_say _
  · exact .refl c

/-! ### One answer -/

/-- An answer either takes the script of a load in progress into the registry, or registers
nothing and changes nothing else either. -/
theorem answer_cases (c : Core) (call : HostCall) :
    (∃ about slot, c.vet about = .ok slot ∧ (c.enlist slot about).Kept (c.answer call).1 ∧
      accepted [(call, (c.answer call).2)] = [about]) ∨
    (c.Kept (c.answer call).1 ∧ accepted [(call, (c.answer call).2)] = []) := by
  cases call with
  | write text => exact .inr ⟨c.kept_write text, rfl⟩
  | sendSignal name data =>
    refine .inr ?_
    simp only [answer]
    split
    · next h => exact ⟨kept_handleSignal h, rfl⟩
    · exact ⟨c.kept_emit rfl, rfl⟩
  | register about =>
    simp only [answer, register]
    split
    · exact .inr ⟨c.kept_complain _, rfl⟩
    · next slot h =>
      exact .inl ⟨about, slot, h, (kept_warnLicense _ _).trans (kept_inform _ _), rfl⟩

/-- No load waits for a registration. -/
def Closed (c : Core) : Prop := ∀ slot, c.loading = some slot → slot.registered.isSome

/-- Without a load none waits for a registration. -/
theorem closed_of_loading_eq_none {c : Core} (h : c.loading = none) : c.Closed := by
  intro slot hs
  rw [h] at hs
  cases hs

private theorem closed_enlist (c : Core) (slot : Loading) (about : Registration) :
    (c.enlist slot about).Closed := by
  intro s hs
  cases hs
  rfl

/-- A core that is kept goes on without a load that waits. -/
theorem Kept.closed {c c' : Core} (h : c.Kept c') (hc : c.Closed) : c'.Closed := by
  intro slot hs
  exact hc slot (h.loading ▸ hs)

/-- A registration is accepted for a load that waits for one, under a name that is free. -/
theorem vet_eq_ok_iff (c : Core) (about : Registration) (slot : Loading) :
    c.vet about = .ok slot ↔
      c.loading = some slot ∧ slot.registered = none ∧ c.registry.find? about.name = none := by
  unfold vet
  cases h : c.loading with
  | none => simp
  | some l =>
    by_cases hr : l.registered = none
    · cases hf : c.registry.find? about.name with
      | none => simp [hr]; grind
      | some id => simp [hr]
    · have hs : l.registered.isSome := Option.isSome_iff_ne_none.mpr hr
      simp only [hs, ↓reduceIte, Option.some.injEq, reduceCtorEq, false_iff, not_and]
      rintro rfl hn
      exact absurd hn hr

/-! ### A whole dialogue -/

private theorem accepted_cons (x : HostCall × Reply) (talk : List (HostCall × Reply)) :
    accepted (x :: talk) = accepted [x] ++ accepted talk := by
  unfold accepted
  rw [← List.filterMap_append]
  rfl

/-- When no load waits for a registration, a dialogue registers nothing and keeps all but output,
requests and the log. -/
theorem Talks.kept_of_closed {c c' : Core} {talk : List (HostCall × Reply)}
    (h : Talks c talk c') (hc : c.Closed) : c.Kept c' ∧ accepted talk = [] := by
  induction h with
  | silent c => exact ⟨.refl c, rfl⟩
  | @ask c c' talk call _ ih =>
    obtain ⟨about, slot, hv, -, -⟩ | ⟨hk, ha⟩ := c.answer_cases call
    · obtain ⟨hl, hr, -⟩ := (c.vet_eq_ok_iff about slot).mp hv
      have := hc slot hl
      rw [hr] at this
      cases this
    · obtain ⟨hk', ha'⟩ := ih (hk.closed hc)
      exact ⟨hk.trans hk', by rw [accepted_cons, ha, ha']; rfl⟩

/-- What a dialogue makes of a load: nothing is registered, or one script under a name that was
free. -/
inductive Admits (c : Core) (slot : Loading) : List Registration → Core → Prop where
  | nobody {c' : Core} : c.Kept c' → Admits c slot [] c'
  | one {c' : Core} (about : Registration) : c.registry.find? about.name = none →
      (c.enlist slot about).Kept c' → Admits c slot [about] c'

/-- What is kept before a script is enlisted is kept behind it. -/
theorem Kept.enlist {c c' : Core} (h : c.Kept c') (slot : Loading) (about : Registration) :
    (c.enlist slot about).Kept (c'.enlist slot about) := by
  have hn : c'.registry.nextId = c.registry.nextId := by rw [h.registry]
  exact
    { h with
      registry := by simp only [Core.enlist, h.registry]
      active := congrArg some hn
      loading := by simp only [Core.enlist, hn] }

/-- A dialogue of a load registers at most one script. -/
theorem Talks.admits {c c' : Core} {talk : List (HostCall × Reply)} (h : Talks c talk c')
    {slot : Loading} (hl : c.loading = some slot) : Admits c slot (accepted talk) c' := by
  induction h with
  | silent c => exact .nobody (.refl c)
  | @ask c c' talk call ht ih =>
    rw [accepted_cons]
    obtain ⟨about, slot', hv, hk, ha⟩ | ⟨hk, ha⟩ := c.answer_cases call
    · -- The first accepted registration closes the load for every later one.
      obtain ⟨hl', -, hf⟩ := (c.vet_eq_ok_iff about slot').mp hv
      obtain rfl : slot = slot' := Option.some.inj (hl.symm.trans hl')
      obtain ⟨hk', ha'⟩ := ht.kept_of_closed (hk.closed (c.closed_enlist slot about))
      rw [ha, ha']
      exact .one about hf (hk.trans hk')
    · rw [ha, List.nil_append]
      have later := ih (hk.loading.trans hl)
      generalize accepted talk = names at later ⊢
      cases later with
      | nobody hk' => exact .nobody (hk.trans hk')
      | one about hf hk' =>
        exact .one about (hk.registry ▸ hf) ((hk.enlist slot about).trans hk')

end Core

end LuaHost
