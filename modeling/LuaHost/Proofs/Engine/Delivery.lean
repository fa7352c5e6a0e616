import LuaHost.Proofs.Core.Lines
import LuaHost.Proofs.Engine.Reachable

/-!
# Text that waits to be delivered

Whatever a script prints is delivered before the operation that ran it ends, with two exceptions. A
call that does not get to run its function ends without a flush, so that an unfinished line which
the look-up of the function printed is left behind. And a load that registers no script ends with
the closing of its interpreter state, behind the last flush, so that an unfinished line is left
behind which finalizers print then. Every other way out of an operation leads over a flush.
-/

namespace LuaHost

/-- Taking the buffered text empties the buffer unless output is being kept. -/
theorem Output.takeDelivery_snd {o : Output} (h : o.isCapturing = false)
    (script : Option String) : (o.takeDelivery script).2 = { o with buffer := "" } := by
  obtain ⟨buffer, evaluation⟩ := o
  by_cases empty : buffer = ""
  · subst empty
    rfl
  · rcases evaluation with - | ⟨- | destination, sendInput, execCommands⟩
    · simp [takeDelivery, delivery?, empty]
    · cases h
    · simp [takeDelivery, delivery?, empty]

private theorem Core.output_flush (c : Core) :
    c.flush.output = (c.output.takeDelivery c.activeName?).2 := by
  unfold flush Output.takeDelivery
  cases c.output.delivery? c.activeName? <;> rfl

/-- Nothing is left in the buffer after a flush unless output is being kept. -/
theorem Core.buffer_flush {c : Core} (h : c.flush.output.isCapturing = false) :
    c.flush.output.buffer = "" := by
  have same : c.output.isCapturing = c.flush.output.isCapturing := by
    unfold Output.isCapturing
    rw [c.kept_flush.evaluation]
  rw [output_flush, Output.takeDelivery_snd (same.trans h)]

namespace Engine

/-- The text that was printed and not delivered. -/
def pending (e : Engine) : String := e.core.output.buffer

/-- Everything printed was delivered, and no evaluation is in progress. -/
def Drained (e : Engine) : Prop := e.core.output = .empty

/-- No text waits. -/
theorem Drained.pending {e : Engine} (h : e.Drained) : e.pending = "" :=
  congrArg Output.buffer h

/-- No evaluation is in progress. -/
theorem Drained.evaluation {e : Engine} (h : e.Drained) : e.core.output.evaluation = none :=
  congrArg Output.evaluation h

private theorem drained_iff {e : Engine} :
    e.Drained ↔ e.pending = "" ∧ e.core.output.evaluation = none :=
  ⟨fun h => ⟨h.pending, h.evaluation⟩, fun h => congr (congrArg Output.mk h.1) h.2⟩

/-- After a flush an engine without an evaluation is drained. -/
theorem drained_flush {e : Engine}
    (h : (e.updateCore Core.flush).core.output.evaluation = none) :
    (e.updateCore Core.flush).Drained :=
  drained_iff.mpr ⟨Core.buffer_flush (Output.isCapturing_of_none h), h⟩

/-! ### Evaluations -/

private theorem evaluation_loadSource {e : Engine} (h : e.Settled) (filename : String)
    (source : ByteArray) (inFile : Bool) :
    (e.loadSource filename source inFile).1.core.output.evaluation = e.core.output.evaluation := by
  rcases loadSource_cases h filename source inFile with
    ⟨about, -, -, -, -, kept⟩ | ⟨failure, lastId, -, -, -, kept⟩
  · exact kept.core.evaluation
  · exact kept.core.evaluation

private theorem evaluation_unload {e : Engine} (h : e.Settled) (id : ScriptId) :
    (e.unload id).1.core.output.evaluation = e.core.output.evaluation := by
  cases found : e.script? id with
  | none => simp only [unload, found]
  | some s => exact (kept_unload h.closed h.activeKnown found).2.core.evaluation

private theorem evaluation_evaluated {e : Engine} (h : e.Settled) (id : ScriptId)
    (evaluation : Evaluation) (arguments : List Argument) :
    (e.evaluated id evaluation arguments).core.output.evaluation = none :=
  (kept_evaluated h id evaluation arguments).core.evaluation

/-- No move leaves an evaluation in progress. -/
theorem Settled.evaluation_move {e e' : Engine} (h : e.Settled) (m : e.Move e')
    (idle : e.core.output.evaluation = none) : e'.core.output.evaluation = none := by
  cases m with
  | deed d =>
    cases d with
    | load filename source inFile => exact (evaluation_loadSource h _ _ _).trans idle
    | unload id => exact (evaluation_unload h id).trans idle
    | evaluate id evaluation arguments => exact evaluation_evaluated h id evaluation arguments
    | print | request | dump | files | setQuiet | setKeepEvaluation | setCheckLicense | scratch =>
      exact idle
  | takeRequests | note | takeTimers | discard => exact idle

/-- However many moves are made, no evaluation is left in progress. -/
theorem Settled.evaluation_moves {e e' : Engine} (h : e.Settled) (ms : e.Moves e')
    (idle : e.core.output.evaluation = none) : e'.core.output.evaluation = none := by
  induction ms with
  | refl => exact idle
  | tail ms m ih => exact (h.moves ms).evaluation_move m ih

private theorem Settled.evaluation_perform {e : Engine} (h : e.Settled) (op : Operation)
    (idle : e.core.output.evaluation = none) : (e.perform op).core.output.evaluation = none := by
  obtain ⟨script, kind, function, arguments, rfl⟩ | ⟨-, moves⟩ := e.perform_cases op
  · exact (kept_invoke h.closed h.activeKnown _ _ _ _).core.evaluation.trans idle
  · exact h.evaluation_moves moves idle

/-- Between operations no evaluation is in progress. -/
theorem Reachable.evaluation {e : Engine} (h : e.Reachable) :
    e.core.output.evaluation = none := by
  obtain ⟨options, license, files, environment, budget, he⟩ := h
  induction he with
  | refl => rfl
  | perform earlier op ih =>
    exact (Reachable.of_new _ _ _ _ _ earlier).settled.evaluation_perform op ih
  | outside _ _ _ _ ih => exact ih

/-! ### Moves -/

/-- The engine when a context is released and what was printed until then is delivered. -/
def released (e : Engine) (context : ContextId) : Engine :=
  (e.release context).updateCore Core.flush

/-- What is flushed is the core of the release. -/
theorem core_released (e : Engine) (context : ContextId) :
    (e.released context).core = (e.release context).core.flush := rfl

/-- A release with its flush leaves nothing behind. -/
theorem drained_released {e : Engine} {context : ContextId}
    (idle : (e.released context).core.output.evaluation = none) : (e.released context).Drained :=
  drained_flush idle

/-- A context is destroyed in three steps. -/
theorem destroyContext_eq (e : Engine) (context : ContextId) :
    e.destroyContext context = ((e.released context).closeState context).dropContext context := rfl

/-- What is printed while its interpreter state is closed waits when a context is destroyed. -/
theorem pending_destroyContext (e : Engine) (context : ContextId) :
    (e.destroyContext context).pending = ((e.released context).closeState context).pending := rfl

private theorem drained_destroyScript {e : Engine} {id : ScriptId} {s : Script}
    (found : e.script? id = some s) (h : (e.destroyScript id).core.output.evaluation = none) :
    (e.destroyScript id).Drained := by
  simp only [destroyScript, found] at h ⊢
  exact drained_flush h

/-- The engine when the source of a load ran and registered no script, and the host was told so
unless it knows of a failure already. -/
def refused (e : Engine) (filename : String) (source : ByteArray) (inFile : Bool) : Engine :=
  match e.sourceFailure? filename source with
  | some _ => (e.ended filename source inFile).1
  | none => (e.ended filename source inFile).1.updateCore
      (·.complain (Failure.unregistered filename).message)

/-- The source of a load registers no script, and finalizers print a line that they do not finish
while the interpreter state of the load is closed. -/
structure Abandons (e : Engine) (filename : String) (source : ByteArray) (inFile : Bool) :
    Prop where
  nobody : (e.ended filename source inFile).2 = none
  left : (((e.refused filename source inFile).released e.nextContext).closeState
    e.nextContext).pending ≠ ""

section

variable {e : Engine} {filename : String} {source : ByteArray} {inFile : Bool}

/-- A load that registers no script ends with the destruction of its context. -/
theorem loadSource_of_nobody (nobody : (e.ended filename source inFile).2 = none) :
    (e.loadSource filename source inFile).1 =
      (e.refused filename source inFile).destroyContext e.nextContext := by
  rw [loadSource_eq, nobody, refused]
  generalize (e.ended filename source inFile).1 = after
  cases e.sourceFailure? filename source with
  | some message => rfl
  | none => rfl

private theorem Abandons.pending (h : e.Abandons filename source inFile) :
    (e.loadSource filename source inFile).1.pending ≠ "" := by
  rw [loadSource_of_nobody h.nobody, pending_destroyContext]
  exact h.left

/-- The run of a source ends with a flush. -/
theorem output_ended (e : Engine) (filename : String) (source : ByteArray) (inFile : Bool) :
    ∃ after : Engine, (e.ended filename source inFile).1.core.output = after.core.flush.output := by
  unfold ended runLoad
  generalize runSource _ e.nextContext filename source = run
  obtain ⟨after, failure⟩ := run
  exact ⟨after.reportSource filename inFile failure, rfl⟩

/-- The run of a source leaves nothing behind. -/
theorem drained_ended (h : e.Settled) (idle : e.core.output.evaluation = none) :
    (e.ended filename source inFile).1.Drained := by
  have closed : (e.ended filename source inFile).1.core.output.evaluation = none := by
    rcases ended_cases h filename source inFile with ⟨-, kept, -⟩ | ⟨about, -, -, kept, -⟩
    · exact kept.core.evaluation.trans idle
    · exact kept.core.evaluation.trans idle
  obtain ⟨after, flushed⟩ := e.output_ended filename source inFile
  rw [Drained, flushed]
  rw [flushed] at closed
  exact drained_flush closed

/-- A load that registers a script leaves nothing behind, be it undone or not. -/
theorem drained_concludeLoad (drained : e.Drained) (context : ContextId) (filename : String)
    (failure : Option String) (id : ScriptId)
    (h : (e.concludeLoad context filename failure (some id)).1.core.output.evaluation = none) :
    (e.concludeLoad context filename failure (some id)).1.Drained := by
  cases failure with
  | none => exact drained
  | some message =>
    simp only [concludeLoad, undoLoad] at h ⊢
    cases found : e.script? id with
    | none => simpa only [destroyScript, found] using drained
    | some s => exact drained_destroyScript found h

/-- A load leaves nothing behind, or it leaves what finalizers printed last. -/
theorem drained_or_abandons (h : e.Settled) (idle : e.core.output.evaluation = none) :
    (e.loadSource filename source inFile).1.Drained ∨ e.Abandons filename source inFile := by
  have evaluation := (evaluation_loadSource h filename source inFile).trans idle
  -- A load that registered ends in a flush; one that did not closes its state behind the last one.
  cases registered : (e.ended filename source inFile).2 with
  | some id =>
    rw [loadSource_eq, registered] at evaluation ⊢
    exact .inl (drained_concludeLoad (drained_ended h idle) _ _ _ id evaluation)
  | none =>
    by_cases empty : (e.loadSource filename source inFile).1.pending = ""
    · exact .inl (drained_iff.mpr ⟨empty, evaluation⟩)
    · rw [loadSource_of_nobody registered, pending_destroyContext] at empty
      exact .inr ⟨registered, empty⟩

end

private theorem drained_unload {e : Engine} (h : e.Settled) (idle : e.core.output.evaluation = none)
    {id : ScriptId} {s : Script} (found : e.script? id = some s) : (e.unload id).1.Drained := by
  have evaluation := (evaluation_unload h id).trans idle
  have informed := e.kept_inform ("unloading script \"" ++ s.name ++ "\"")
  have shut := informed.trans (kept_shutDown (informed.core_closed h.closed)
    (informed.activeKnown h.activeKnown) s)
  simp only [unload, found] at evaluation ⊢
  generalize (e.updateCore (·.inform ("unloading script \"" ++ s.name ++ "\""))).shutDown s = e₁
    at shut evaluation ⊢
  have still : e₁.script? id = some s := (shut.script? id).trans found
  have output (e : Engine) : (e.updateCore (·.emit (@Event.signal .engine
      Signal.scriptUnloaded.name s.filename))).core.output = e.core.output := rfl
  have scratch (e : Engine) : (if e.scratch = some id then { e with scratch := none }
      else e).core.output = e.core.output := by split <;> rfl
  rw [Drained, output, scratch]
  rw [output, scratch] at evaluation
  exact drained_destroyScript still evaluation

/-- An evaluation takes what is left to its destination, or keeps it as its result. -/
theorem drained_evaluated (e : Engine) (id : ScriptId) (evaluation : Evaluation)
    (arguments : List Argument) : (e.evaluated id evaluation arguments).Drained := by
  unfold evaluated
  generalize ((e.openEvaluation evaluation).invoke id .ignored scratchFunction arguments).1 = called
  unfold closeEvaluation
  dsimp only
  split
  · rfl
  · next h =>
    have delivered := Core.buffer_flush (Bool.eq_false_iff.mpr h)
    exact drained_iff.mpr ⟨delivered, rfl⟩

/-- A move that neither prints nor delivers anything. -/
def Rest (e e' : Engine) : Prop := e.Move e' ∧ e'.core.output = e.core.output

/-- Any number of such moves. -/
def Rests : Engine → Engine → Prop := Relation.ReflTransGen Rest

private theorem Rests.output {e e' : Engine} (h : e.Rests e') : e'.core.output = e.core.output := by
  induction h with
  | refl => rfl
  | tail _ rest ih => exact rest.2.trans ih

/-- Whatever was pending, a move leaves nothing behind, or it has nothing to do with output, or it
is a load that leaves behind what finalizers printed last. -/
theorem Settled.move_cases {e e' : Engine} (h : e.Settled)
    (idle : e.core.output.evaluation = none) (m : e.Move e') :
    e'.Drained ∨ e.Rest e' ∨ ∃ filename source inFile,
      e.Abandons filename source inFile ∧ e' = (e.loadSource filename source inFile).1 := by
  cases m with
  | deed d =>
    cases d with
    | load filename source inFile =>
      rcases drained_or_abandons h idle with drained | abandons
      · exact .inl drained
      · exact .inr (.inr ⟨filename, source, inFile, abandons, rfl⟩)
    | unload id =>
      cases found : e.script? id with
      | none =>
        have same : (e.unload id).1 = e := by simp only [Engine.unload, found]
        exact .inr (.inl ⟨.deed (.unload e id), congrArg (·.core.output) same⟩)
      | some s => exact .inl (drained_unload h idle found)
    | evaluate id evaluation arguments => exact .inl (e.drained_evaluated id evaluation arguments)
    | print line => exact .inr (.inl ⟨.deed (.print e line), rfl⟩)
    | request kind item => exact .inr (.inl ⟨.deed (.request e kind item), rfl⟩)
    | dump => exact .inr (.inl ⟨.deed (.dump e), rfl⟩)
    | files files => exact .inr (.inl ⟨.deed (.files e files), rfl⟩)
    | setQuiet quiet => exact .inr (.inl ⟨.deed (.setQuiet e quiet), rfl⟩)
    | setKeepEvaluation keep => exact .inr (.inl ⟨.deed (.setKeepEvaluation e keep), rfl⟩)
    | setCheckLicense check => exact .inr (.inl ⟨.deed (.setCheckLicense e check), rfl⟩)
    | scratch scratch => exact .inr (.inl ⟨.deed (.scratch e scratch), rfl⟩)
  | takeRequests kind => exact .inr (.inl ⟨.takeRequests e kind, rfl⟩)
  | note n => exact .inr (.inl ⟨.note e n, rfl⟩)
  | takeTimers now => exact .inr (.inl ⟨.takeTimers e now, rfl⟩)
  | discard => exact .inr (.inl ⟨.discard e, rfl⟩)

/-- On the way between two engines a load leaves behind what finalizers printed last, and nothing
after it delivers that. -/
def StrandsBefore (e e' : Engine) : Prop :=
  ∃ e₁ filename source inFile, e.Moves e₁ ∧ e₁.Abandons filename source inFile ∧
    (e₁.loadSource filename source inFile).1.Rests e'

private theorem StrandsBefore.pending {e e' : Engine} (h : e.StrandsBefore e') :
    e'.pending ≠ "" := by
  obtain ⟨e₁, filename, source, inFile, -, abandons, rests⟩ := h
  rw [Engine.pending, rests.output]
  exact abandons.pending

/-- Moves that start with everything delivered leave text behind only where a load does so. -/
theorem Drained.moves {e e' : Engine} (drained : e.Drained) (h : e.Settled) (ms : e.Moves e')
    (left : e'.pending ≠ "") : e.StrandsBefore e' := by
  induction ms with
  | refl => exact absurd drained.pending left
  | @tail b c ms m ih =>
    rcases (h.moves ms).move_cases (h.evaluation_moves ms drained.evaluation) m with
      delivered | rest | ⟨filename, source, inFile, abandons, rfl⟩
    · exact absurd delivered.pending left
    · have before : b.pending ≠ "" := by rwa [Engine.pending, ← rest.2]
      obtain ⟨e₁, filename, source, inFile, earlier, abandons, rests⟩ := ih before
      exact ⟨e₁, filename, source, inFile, earlier, abandons, rests.tail rest⟩
    · exact ⟨b, filename, source, inFile, ms, abandons, .refl⟩

/-! ### Calls -/

/-- The look-up of a function in a script, which runs with the script active. -/
def lookUp (e : Engine) (s : Script) (function : String) : Engine × Lua.Value :=
  (e.updateCore (·.activate (some s.id))).global s.context function

/-- An operation leaves text behind. A call does when it does not get to run its function and the
look-up of the function printed a line that it did not finish; any other operation does when it
makes a load that leaves behind what finalizers printed last, and does not deliver it later. -/
def Strands (e : Engine) : Operation → Prop
  | .invoke script _ function arguments =>
    arguments.length ≤ maxArguments ∧ ∃ s, e.script? script = some s ∧
      Lua.Heap.isFunction (e.lookUp s function).2 = false ∧ (e.lookUp s function).1.pending ≠ ""
  | op => e.StrandsBefore (e.perform op)

private theorem strands_iff_of_not_isCall {e : Engine} {op : Operation} (h : ¬op.IsCall) :
    e.Strands op ↔ e.StrandsBefore (e.perform op) := by
  cases op with
  | invoke => exact absurd trivial h
  | _ => exact .rfl

/-- A call delivers what it printed once its function was found. -/
theorem pending_invokeActive {e : Engine} (h : e.core.Closed)
    (evaluation : e.core.output.evaluation = none) (context : ContextId) (kind : ResultKind)
    (function : String) (arguments : List Argument) :
    (e.invokeActive context kind function arguments).1.pending =
      if Lua.Heap.isFunction (e.global context function).2 then ""
      else (e.global context function).1.pending := by
  have kept :=
    (kept_invokeActive h context kind function arguments).core.evaluation.trans evaluation
  unfold invokeActive at kept ⊢
  generalize e.global context function = result at kept ⊢
  dsimp only at kept ⊢
  by_cases found : Lua.Heap.isFunction result.2 = true
  · simp only [found, Bool.not_true, Bool.false_eq_true, if_false, if_true] at kept ⊢
    exact (drained_flush kept).pending
  · rw [Bool.not_eq_true] at found
    simp only [found, Bool.not_false, if_true, Bool.false_eq_true, if_false]
    rfl

/-- A call that is refused before the look-up prints nothing of a script. -/
theorem pending_invoke_refused {e : Engine} {script : ScriptId} {arguments : List Argument}
    (refused : maxArguments < arguments.length ∨ e.script? script = none) (kind : ResultKind)
    (function : String) : (e.invoke script kind function arguments).1.pending = e.pending := by
  unfold invoke
  by_cases many : arguments.length > maxArguments
  · rw [if_pos many]
    rfl
  · rw [if_neg many]
    simp only [refused.resolve_left many]
    rfl

private theorem pending_invoke_found {e : Engine} (h : e.core.Closed)
    (evaluation : e.core.output.evaluation = none) {script : ScriptId} {s : Script}
    (found : e.script? script = some s) {arguments : List Argument}
    (few : arguments.length ≤ maxArguments) (kind : ResultKind) (function : String) :
    (e.invoke script kind function arguments).1.pending =
      if Lua.Heap.isFunction (e.lookUp s function).2 then ""
      else (e.lookUp s function).1.pending := by
  obtain rfl := Registry.id_of_get? found
  have active : (e.updateCore (·.activate (some s.id))).core.Closed := h
  have restored (e₁ : Engine) : (e₁.updateCore (·.restore e.core.active)).pending = e₁.pending :=
    rfl
  simp only [invoke, if_neg (Nat.not_lt.mpr few), found, restored]
  exact pending_invokeActive active evaluation s.context kind function arguments

/-- A call of a drained engine leaves text behind exactly if it strands it. -/
theorem pending_invoke {e : Engine} (h : e.Settled) (drained : e.Drained) (script : ScriptId)
    (kind : ResultKind) (function : String) (arguments : List Argument) :
    (e.invoke script kind function arguments).1.pending ≠ "" ↔
      e.Strands (.invoke script kind function arguments) := by
  by_cases refused : maxArguments < arguments.length ∨ e.script? script = none
  · have nothing : ¬e.Strands (.invoke script kind function arguments) := by
      rintro ⟨few, s, found, -⟩
      rcases refused with many | missing
      · omega
      · rw [missing] at found
        cases found
    rw [pending_invoke_refused refused, drained.pending]
    exact iff_of_false (· rfl) nothing
  · rw [not_or, Nat.not_lt] at refused
    obtain ⟨few, there⟩ := refused
    obtain ⟨s, found⟩ := Option.ne_none_iff_exists'.mp there
    rw [pending_invoke_found h.closed drained.evaluation found few]
    constructor
    · intro left
      cases f : Lua.Heap.isFunction (e.lookUp s function).2 with
      | true => simp [f] at left
      | false => exact ⟨few, s, found, f, by simpa [f] using left⟩
    · rintro ⟨-, s', found', missing, left⟩
      obtain rfl := Option.some.inj (found.symm.trans found')
      simpa [missing] using left

/-- With everything delivered, an operation leaves text behind exactly if it strands it. -/
theorem pending_perform {e : Engine} (h : e.Settled) (drained : e.Drained) (op : Operation) :
    (e.perform op).pending ≠ "" ↔ e.Strands op := by
  obtain ⟨script, kind, function, arguments, rfl⟩ | ⟨other, moves⟩ := e.perform_cases op
  · exact pending_invoke h drained script kind function arguments
  · rw [strands_iff_of_not_isCall other]
    exact ⟨drained.moves h moves, StrandsBefore.pending⟩

/-! ### Between operations -/

/-- An engine in which text waits has been left by an operation that stranded it. -/
theorem Evolves.stranded {e₀ e : Engine} (h₀ : e₀.Reachable) (delivered : e₀.pending = "")
    (he : e₀.Evolves e) (left : e.pending ≠ "") :
    ∃ e₁ op, e₀.Evolves e₁ ∧ e₁.pending = "" ∧ e₁.Strands op ∧ (e₁.perform op).Evolves e := by
  induction he with
  | refl => exact absurd delivered left
  | @perform e₁ earlier op ih =>
    by_cases before : e₁.pending = ""
    · have reached := h₀.evolves earlier
      have drained := drained_iff.mpr ⟨before, reached.evaluation⟩
      exact ⟨e₁, op, earlier, before, (pending_perform reached.settled drained op).mp left, .refl⟩
    · obtain ⟨e₂, op', reached, empty, strands, later⟩ := ih before
      exact ⟨e₂, op', reached, empty, strands, later.perform op⟩
  | outside _ files environment clock ih =>
    obtain ⟨e₂, op, reached, empty, strands, later⟩ := ih left
    exact ⟨e₂, op, reached, empty, strands, later.outside files environment clock⟩

/-- Text waits between two operations only after one that stranded it: a call whose function is not
found, while the look-up printed a line that it did not finish, or an operation with a load that
registered no script, while finalizers printed such a line when its interpreter state was closed,
and with nothing that delivers it afterwards. An operation that starts with everything delivered
leaves text behind exactly if it is one of these. -/
theorem output_delivered {e : Engine} (h : e.Reachable) :
    (e.pending ≠ "" → ∃ (e₀ : Engine) (op : Operation), e₀.Reachable ∧ e₀.pending = "" ∧
      e₀.Strands op ∧ (e₀.perform op).Evolves e) ∧
    ∀ op, e.pending = "" → ((e.perform op).pending ≠ "" ↔ e.Strands op) := by
  constructor
  · intro left
    obtain ⟨options, license, files, environment, budget, he⟩ := h
    have started := Reachable.of_new options license files environment budget .refl
    obtain ⟨e₀, op, reached, empty, strands, later⟩ := Evolves.stranded started rfl he left
    exact ⟨e₀, op, started.evolves reached, empty, strands, later⟩
  · intro op empty
    exact pending_perform h.settled (drained_iff.mpr ⟨empty, h.evaluation⟩) op

/-- Two scripts, of which the first prints when a global is looked up that is not there. -/
def pair : Engine :=
  (bare.perform (.load "a.lua" (some
    "weechat.register('a', '', '', '', '', '', '')
setmetatable(_G, \x7b__index = function() io.write('left') end\x7d)"))).perform
  (.load "b.lua" (some
    "weechat.register('b', '', '', '', '', '', '')
function f() print('mine') end"))

private theorem reachable_pair : pair.Reachable := (reachable_bare.perform _).perform _

/-- A source that does not register, and leaves an object with the library that prints when it is
finalized. -/
def keepsake : String :=
  "string.keep = setmetatable(\x7b\x7d, \x7b__gc = function() io.write(42) end\x7d)"

set_option maxRecDepth 100000 in
/-- The cases of a call that does not find its function, of one that does, and of a load that
registers no script. -/
theorem output_delivered_pair :
    let missed := pair.perform (.invoke ⟨1⟩ .ignored "f" [])
    pair.Strands (.invoke ⟨1⟩ .ignored "f" []) ∧ ¬pair.Strands (.invoke ⟨2⟩ .ignored "f" []) ∧
      pair.Strands (.load "k.lua" (some keepsake)) ∧
      ∃ (e₀ : Engine) (op : Operation), e₀.Reachable ∧ e₀.pending = "" ∧ e₀.Strands op ∧
        (e₀.perform op).Evolves missed := by
  obtain ⟨before, missed, found, failed⟩ : pair.pending = "" ∧
      (pair.perform (.invoke ⟨1⟩ .ignored "f" [])).pending ≠ "" ∧
      ¬(pair.perform (.invoke ⟨2⟩ .ignored "f" [])).pending ≠ "" ∧
      (pair.perform (.load "k.lua" (some keepsake))).pending ≠ "" := by
    decide +kernel
  have strands := (output_delivered reachable_pair).2
  exact ⟨(strands _ before).mp missed, mt (strands _ before).mpr found,
    (strands _ before).mp failed, (output_delivered (reachable_pair.perform _)).1 missed⟩

set_option maxRecDepth 100000 in
/-- What the first script left behind is delivered under the name of the second, and so is what
was finalized behind a load that failed. -/
theorem output_left_behind :
    let missed := pair.perform (.invoke ⟨1⟩ .ignored "f" [])
    let failed := pair.perform (.load "k.lua" (some keepsake))
    let call := Operation.invoke ⟨2⟩ .ignored "f" []
    missed.pending = "left" ∧ (missed.perform call).core.events.back? =
        some (.print none "lua: stdout/stderr (b): leftmine") ∧
      failed.pending = "42" ∧ (failed.perform call).core.events.back? =
        some (.print none "lua: stdout/stderr (b): 42mine") := by
  decide +kernel

end Engine

end LuaHost
