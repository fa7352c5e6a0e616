import LuaHost.Proofs.Engine.Proceeding
import LuaHost.Proofs.Engine.Reachable
import LuaHost.Proofs.Request

/-!
# Requests are served once and in order

Every request is noted when it arrives, whoever makes it, and every batch when it is taken up. While
an engine is not closed each of its waiting lists holds just the requests of the kind that came
after the last batch, and every batch is what the requests before it asked for. So no request is
lost, none is served twice and none overtakes another one.
-/

namespace LuaHost

/-- The note about a signal that asks for something. -/
def Signal.note? (name data : String) : Option Note :=
  ((Signal.ofName? name).bind Signal.request?).map (Note.asked · data)

namespace Core

open Lua (HostCall Reply Machine)

/-- What a script asks for in a dialogue. -/
def requested (talk : List (HostCall × Reply)) : List Note :=
  talk.filterMap fun
    | (.sendSignal name data, _) => Signal.note? name data
    | _ => none

/-! ### Notes -/

private theorem notes_handleSignal {c c' : Core} {name data : String}
    (h : c.handleSignal? name data = some c') :
    c'.notes.toList = c.notes.toList ++ (Signal.note? name data).toList := by
  unfold handleSignal? at h
  split at h
  · cases h
  · next signal known =>
    split at h
    · next kind asks =>
      cases h
      simp [Signal.note?, known, asks, request, note]
    · next asks =>
      split at h
      · cases h
        simp [Signal.note?, known, asks, dump]
      · cases h

/-- A signal that is not meant for the engine asks for nothing. -/
theorem note?_of_handleSignal {c : Core} {name data : String}
    (h : c.handleSignal? name data = none) : Signal.note? name data = none := by
  unfold handleSignal? at h
  split at h
  · next unknown => simp [Signal.note?, unknown]
  · next signal known =>
    split at h
    · cases h
    · next asks => simp [Signal.note?, known, asks]

private theorem notes_inform (c : Core) (message : String) :
    (c.inform message).notes = c.notes := by
  unfold inform
  split <;> rfl

private theorem notes_warnLicense (c : Core) (about : Registration) :
    (c.warnLicense about).notes = c.notes := by
  unfold warnLicense
  split <;> rfl

private theorem notes_register (c : Core) (about : Registration) :
    (c.register about).1.notes = c.notes := by
  unfold register
  split
  · rfl
  · rw [notes_inform, notes_warnLicense]
    rfl

private theorem notes_write (c : Core) (text : String) : (c.write text).notes = c.notes := by
  rw [write_eq]

private theorem notes_answer (c : Core) (call : HostCall) :
    (c.answer call).1.notes.toList =
      c.notes.toList ++ requested [(call, (c.answer call).2)] := by
  cases call with
  | write text =>
    rw [show (c.answer (.write text)).1 = c.write text from rfl, notes_write]
    exact (List.append_nil _).symm
  | register about =>
    rw [show (c.answer (.register about)).1 = (c.register about).1 from rfl, notes_register]
    exact (List.append_nil _).symm
  | sendSignal name data =>
    have asked (reply : Reply) : requested [(.sendSignal name data, reply)] =
        (Signal.note? name data).toList := by
      cases h : Signal.note? name data <;> simp [requested, h]
    rw [asked]
    simp only [answer]
    split
    · next h => exact notes_handleSignal h
    · next h =>
      rw [note?_of_handleSignal h]
      exact (List.append_nil _).symm

private theorem Talks.notes {c c' : Core} {talk : List (HostCall × Reply)} (h : c.Talks talk c') :
    c'.notes.toList = c.notes.toList ++ requested talk := by
  induction h with
  | silent c => exact (List.append_nil _).symm
  | @ask c c' talk call _ ih =>
    have split : requested ((call, (c.answer call).2) :: talk) =
        requested [(call, (c.answer call).2)] ++ requested talk := by
      unfold requested
      rw [← List.filterMap_append]
      rfl
    rw [ih, notes_answer, split, List.append_assoc]

/-! ### One step -/

/-- Since `c₀` the requests of every kind were served as they came. -/
def Serves (c₀ c : Core) : Prop :=
  ∃ notes, c.notes.toList = c₀.notes.toList ++ notes ∧
    ∀ kind, (Docket.ofNotes kind (c₀.requests.pending kind) notes).Sound (c.requests.pending kind)

namespace Serves

variable {c₀ c c' : Core}

private theorem refl (c : Core) : c.Serves c :=
  ⟨[], (List.append_nil _).symm, fun _ => Docket.Sound.start _⟩

/-- What leaves the lists and the notes alone serves nothing. -/
theorem congr (h : c₀.Serves c) (requests : ∀ kind, c'.requests.pending kind =
    c.requests.pending kind) (notes : c'.notes = c.notes) : c₀.Serves c' := by
  obtain ⟨since, noted, sound⟩ := h
  refine ⟨since, notes ▸ noted, ?_⟩
  intro kind
  rw [requests]
  exact sound kind

/-- One more note goes on the dockets of its kind. -/
theorem note (h : c₀.Serves c) {n : Note} (noted : c'.notes.toList = c.notes.toList ++ [n])
    (sound : ∀ kind d, Docket.Sound d (c.requests.pending kind) →
      (d.enter kind n).Sound (c'.requests.pending kind)) : c₀.Serves c' := by
  obtain ⟨since, before, served⟩ := h
  refine ⟨since ++ [n], ?_, ?_⟩
  · rw [noted, before, List.append_assoc]
  · intro kind
    rw [Docket.ofNotes_concat]
    exact sound kind _ (served kind)

/-- A request goes on the list of its kind. -/
theorem request (h : c₀.Serves c) (kind : RequestKind) (item : String) :
    c₀.Serves (c.request kind item) := by
  apply h.note (n := .asked kind item)
  · exact Array.toList_push
  · intro k d sound
    have list : (c.request kind item).requests.pending k =
        if k = kind then RequestQueue.appendRequest (c.requests.pending kind) item
        else c.requests.pending k := RequestQueue.pending_add _ _ _ _
    rw [list]
    by_cases same : k = kind
    · subst same
      rw [if_pos rfl]
      exact sound.ask k item
    · rw [if_neg same, Docket.enter_asked_of_ne (Ne.symm same)]
      exact sound

/-- A batch takes the whole list of its kind. -/
theorem run (h : c₀.Serves c) (kind : RequestKind) :
    c₀.Serves ({ c with requests := (c.requests.take kind).2 }.note
      (.ran kind (.ofText (c.requests.pending kind)))) := by
  apply h.note (n := .ran kind (.ofText (c.requests.pending kind)))
  · exact Array.toList_push
  · intro k d sound
    have list : (c.requests.take kind).2.pending k =
        if k = kind then "" else c.requests.pending k := RequestQueue.pending_take _ _ _
    show (d.enter k _).Sound ((c.requests.take kind).2.pending k)
    rw [list]
    by_cases same : k = kind
    · subst same
      rw [if_pos rfl]
      exact sound.run k
    · rw [if_neg same, Docket.enter_ran_of_ne (Ne.symm same)]
      exact sound

private theorem step (h : c₀.Serves c) (s : c.Step c') : c₀.Serves c' := by
  cases s with
  | aside _ requests _ notes => exact h.congr (fun _ => by rw [requests]) notes
  | write text =>
    have same := c.write_eq text
    exact h.congr (fun _ => by rw [same]) (by rw [same])
  | flush => exact h.congr (fun _ => by rw [flush_eq]) (by rw [flush_eq])
  | request kind item => exact h.request kind item
  | evaluation => exact h.congr (fun _ => rfl) rfl
  | takeBuffer => exact h.congr (fun _ => rfl) rfl

end Serves

end Core

namespace Engine

/-! ### A whole run -/

private theorem serves_runRequests {c₀ : Core} {e : Engine} (h : c₀.Serves e.core)
    (kind : RequestKind) : c₀.Serves (e.runRequests kind).core := by
  rcases e.runRequests_cases kind with ⟨nothing, same⟩ | proceeds
  · rw [same]
    refine h.congr (fun k => ?_) rfl
    have list : (e.core.requests.take kind).2.pending k =
        if k = kind then "" else e.core.requests.pending k := RequestQueue.pending_take _ _ _
    refine list.trans ?_
    split
    · next is => rw [is, nothing]
    · rfl
  · exact proceeds.core.keeps (fun s h => h.step s) (h.run kind)

private theorem serves_runTimers {c₀ : Core} {e : Engine} (h : c₀.Serves e.core) (now : Nat) :
    c₀.Serves (e.runTimers now).1.core := by
  have taken : c₀.Serves (e.withoutReady now).core := h.congr (fun _ => rfl) rfl
  rw [runTimers_eq]
  refine List.foldlRecOn (motive := fun e' : Engine => c₀.Serves e'.core) _ _ taken ?_
  intro e' serves kind _
  exact serves_runRequests serves kind

private theorem serves_perform {c₀ : Core} {e : Engine} (h : c₀.Serves e.core) (op : Operation)
    (still : (e.perform op).closed = e.closed) : c₀.Serves (e.perform op).core := by
  by_cases takes : op.Takes
  · cases op with
    | runTimers now => exact serves_runTimers h now
    | runRequests kind => exact serves_runRequests h kind
    | close =>
      have closed : e.closed = true := still.symm.trans e.closed_close
      rw [perform, close_of_closed closed]
      exact h
    | _ => exact takes.elim
  · exact (e.proceeds_perform takes).core.keeps (fun s h => h.step s) h

/-- While an engine is not closed its requests are served as they come. -/
theorem Evolves.serves {e₀ e : Engine} (h : e₀.Evolves e) (still : e.closed = e₀.closed) :
    e₀.core.Serves e.core := by
  induction h with
  | refl => exact .refl e₀.core
  | @perform e earlier op ih =>
    -- An engine that is open after an operation was open before it.
    have before : e.closed = e₀.closed := by
      cases closed : e₀.closed with
      | true => exact earlier.closed closed
      | false =>
        rw [closed] at still
        by_contra opened
        have stays := (Evolves.refl.perform op).closed (Bool.of_not_eq_false opened)
        rw [still] at stays
        cases stays
    exact serves_perform (ih before) op (still.trans before.symm)
  | outside _ files environment clock ih => exact (ih still).congr (fun _ => rfl) rfl

/-- Every request of a script is noted when it arrives, and so is every one of the host. While an
engine is not closed, the names of the batches of a kind that were taken up, followed by the names
on its waiting list, are the names of the requests of that kind in the order of their arrival, after
those that were on the list at first. A batch is made of the requests that came since the batch
before it, and it is quiet, or for autoload, if one of them is. -/
theorem requests_served_in_order :
    (∀ (budget : Nat) (c : Core) (m : Lua.Machine), (c.run budget m).1.notes.toList =
      c.notes.toList ++ Core.requested (c.dialogue budget m)) ∧
    (∀ (e : Engine) (name data : String), (e.handleSignal name data).1.core.notes.toList =
      e.core.notes.toList ++ (Signal.note? name data).toList) ∧
    (∀ (e : Engine) (kind : RequestKind) (item : String), (e.request kind item).core.notes.toList =
      e.core.notes.toList ++ [.asked kind item]) ∧
    ∀ {e₀ e : Engine}, e₀.Evolves e → e.closed = e₀.closed →
      ∃ notes, e.core.notes.toList = e₀.core.notes.toList ++ notes ∧ ∀ kind,
        let before := e₀.core.requests.pending kind
        let waiting := e.core.requests.pending kind
        let requests := before :: notes.filterMap (Note.request? kind)
        let batches := notes.filterMap (Note.batch? kind)
        let docket := Docket.ofNotes kind before notes
        batches.flatMap Batch.names ++ (Batch.ofText waiting).names =
            (requests.flatMap fun item => (Batch.ofText item).names) ∧
          docket.requests = requests ∧ docket.batches = batches ∧
          ∀ made ∈ docket.served,
            made.2.names = (made.1.flatMap fun item => (Batch.ofText item).names) ∧
            made.2.quiet = (made.1.any fun item => (Batch.ofText item).quiet) ∧
            made.2.autoload = (made.1.any fun item => (Batch.ofText item).autoload) := by
  refine ⟨?_, ?_, ?_, ?_⟩
  · intro budget c m
    exact (c.talks_run budget m).notes
  · intro e name data
    unfold handleSignal
    split
    · next h => exact Core.notes_handleSignal h
    · next h =>
      rw [Core.note?_of_handleSignal h]
      exact (List.append_nil _).symm
  · intro e kind item
    exact Array.toList_push
  · intro e₀ e evolves still
    -- The docket keeps beside each batch the requests it was made of, and is sound along every run.
    obtain ⟨notes, noted, sound⟩ := evolves.serves still
    refine ⟨notes, noted, ?_⟩
    intro kind
    have requests := Docket.requests_ofNotes kind (e₀.core.requests.pending kind) notes
    have batches := Docket.batches_ofNotes kind (e₀.core.requests.pending kind) notes
    refine ⟨?_, requests, batches, ?_⟩
    · rw [← requests, ← batches]
      exact (sound kind).names
    · intro made mem
      rw [(sound kind).served made mem]
      exact ⟨Batch.names_ofRequests _, Batch.quiet_ofRequests _, Batch.autoload_ofRequests _⟩

/-- An engine that has removed a script which asked for more when it was shut down. -/
def parting : Engine :=
  let loaded := bare.perform (.load "a.lua" (some
    "weechat.register('a', '', '', '', '', 'leave', '')
function leave()
  weechat.signal_send('lua_script_remove', '-a c.lua')
end"))
  let asked := (loaded.perform (.request .remove "a.lua")).perform (.request .remove "-q b.lua")
  asked.perform (.runTimers 1)

/-- That engine comes about by four operations. -/
theorem evolves_parting : bare.Evolves parting := by
  unfold parting
  apply Evolves.perform
  apply Evolves.perform
  apply Evolves.perform
  apply Evolves.perform
  exact .refl

set_option maxRecDepth 100000 in
/-- The case of a request that is made while another one is served. -/
theorem requests_served_in_order_parting :
    let notes := parting.core.notes.toList
    let waiting := parting.core.requests.pending .remove
    notes.filterMap (Note.batch? .remove) = [⟨true, false, ["a.lua", "b.lua"]⟩] ∧
      waiting = "-a c.lua" ∧
      (notes.filterMap (Note.batch? .remove)).flatMap Batch.names ++ (Batch.ofText waiting).names =
        ("" :: notes.filterMap (Note.request? .remove)).flatMap fun item =>
          (Batch.ofText item).names := by
  have ran : parting.closed = bare.closed ∧
      parting.core.notes.toList.filterMap (Note.batch? .remove) =
        [⟨true, false, ["a.lua", "b.lua"]⟩] ∧
      parting.core.requests.pending .remove = "-a c.lua" := by
    decide +kernel
  obtain ⟨notes, noted, served⟩ := requests_served_in_order.2.2.2 evolves_parting ran.1
  obtain rfl : parting.core.notes.toList = notes := noted
  exact ⟨ran.2.1, ran.2.2, (served .remove).1⟩

end Engine

end LuaHost
