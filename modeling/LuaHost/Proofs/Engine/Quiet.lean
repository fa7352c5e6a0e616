import LuaHost.Proofs.Engine.Ambient
import LuaHost.Proofs.Engine.Mirror

/-!
# What the quiet mode hides

The host gets the same results from an engine in quiet mode, and the engine ends up the same. What
it does not get is notices about loads and unloads. Batches run in the quiet mode that the requests
ask for, so that nothing more is hidden while they run.
-/

namespace LuaHost.Engine

open LuaHost.Core (Mirror Parallel Tells Even Hushed)

/-! ### What the host gets -/

/-- What a host gets back from an operation. -/
inductive Response where
  | done
  | loaded (result : Except Failure ScriptId)
  | unloaded (result : Except Failure Unit)
  | called (result : Option CallResult)
  | evaluated (result : Except Failure (Option String))
  | text (result : Option String)
  | count (n : Nat)
  | taken (meant : Bool)

/-- The result of an operation. -/
def respond (e : Engine) : Operation → Response
  | .load filename code => .loaded (e.load filename code).2
  | .loadNamed name => .loaded (e.loadNamed name).2
  | .reload name => .loaded (e.reload name).2
  | .autoload => .count e.autoload.2
  | .unload id => .unloaded (e.unload id).2
  | .unloadNamed name => .unloaded (e.unloadNamed name).2
  | .invoke script kind function arguments => .called (e.invoke script kind function arguments).2
  | .evaluate evaluation code => .evaluated (e.evaluate evaluation code).2
  | .evaluateToText code => .text (e.evaluateToText code).2
  | .handleSignal name data => .taken (e.handleSignal name data).2
  | .runTimers now => .count (e.runTimers now).2
  | .unloadAll | .request .. | .runRequests _ | .setQuiet _ | .setKeepEvaluation _
  | .setCheckLicense _ | .displayList .. | .displayNames | .displayInterpreter | .dump | .close =>
    .done

/-- An operation that runs the batches that are due. -/
def Operation.runsBatches : Operation → Bool
  | .runTimers _ | .runRequests _ => true
  | _ => false

/-- An operation that sets the quiet mode. -/
def Operation.SetsQuiet : Operation → Prop
  | .setQuiet _ | .close => True
  | _ => False

private theorem Setting.quiet_after (g : Setting) {op : Operation} (unset : ¬op.SetsQuiet) :
    (g.after op).quiet = g.quiet ∧ (g.after op).options.debug = g.options.debug := by
  cases op with
  | setQuiet | close => exact absurd trivial unset
  | _ => exact ⟨rfl, rfl⟩

/-! ### Operations on both sides -/

/-- What prints the same on both sides and does not run batches responds the same. -/
theorem respond_mirror {R : Core → Core → Prop} (M : Mirror R) {e : Engine} {d : Core}
    (h : R e.core d) {op : Operation} (batches : op.runsBatches = false) (unset : ¬op.SetsQuiet) :
    AlikeWith R (e.perform op, e.respond op)
      ((e.withCore d).perform op, (e.withCore d).respond op) := by
  cases op with
  | load filename code => exact AlikeWith.map (M.load h filename code) Response.loaded
  | loadNamed name => exact AlikeWith.map (M.loadNamed h name) Response.loaded
  | reload name => exact AlikeWith.map (M.reload h name) Response.loaded
  | autoload => exact AlikeWith.map (M.autoload h) Response.count
  | unload id => exact AlikeWith.map (M.unload h id) Response.unloaded
  | unloadNamed name => exact AlikeWith.map (M.unloadNamed h name) Response.unloaded
  | unloadAll => exact Alike.pair (M.unloadAll h) Response.done
  | invoke script kind function arguments =>
    exact AlikeWith.map (M.invoke h script kind function arguments) Response.called
  | evaluate evaluation code =>
    exact AlikeWith.map (M.evaluate h evaluation code) Response.evaluated
  | evaluateToText code => exact AlikeWith.map (M.evaluateToText h code) Response.text
  | request kind item => exact Alike.pair (M.alike_request h kind item) Response.done
  | handleSignal name data => exact AlikeWith.map (M.takeSignal h name data) Response.taken
  | setKeepEvaluation keep =>
    exact ⟨_, M.setOptions (f := fun o => { o with keepEvaluation := keep }) h fun _ => rfl, rfl⟩
  | setCheckLicense check =>
    exact ⟨_, M.setOptions (f := fun o => { o with checkLicense := check }) h fun _ => rfl, rfl⟩
  | displayList filter full => exact Alike.pair (M.displayList h filter full) Response.done
  | displayNames => exact Alike.pair (M.displayNames h) Response.done
  | displayInterpreter => exact Alike.pair (M.displayInterpreter h) Response.done
  | dump => exact ⟨_, M.dump h, rfl⟩
  | runTimers | runRequests => cases batches
  | setQuiet | close => exact absurd trivial unset

/-! ### Batches on both sides -/

/-- Cores of which only the second one is quiet, and that told the same since some time. -/
structure Apart (before before' : Array Event) (c d : Core) : Prop
    extends Parallel (fun _ => true) before before' c d where
  loud : c.quiet = false
  quiet : d.quiet = true

section

variable {before before' : Array Event} {e : Engine} {d : Core}

/-- In a mode that is set on both sides both tell the same, and each returns to its own mode. -/
theorem apart_withQuiet (h : Apart before before' e.core d) (quiet : Bool)
    {operation : Engine → Engine}
    (carried : ∀ {e : Engine} {d : Core}, Even before before' e.core d →
      Alike (Even before before') (operation e) (operation (e.withCore d))) :
    Alike (Apart before before') (e.withQuiet quiet fun e => (operation e, ())).1
      ((e.withCore d).withQuiet quiet fun e => (operation e, ())).1 := by
  have even : Even before before' (e.setQuiet quiet).core { d with quiet } :=
    ⟨h.withQuiet quiet quiet, rfl⟩
  obtain ⟨d₁, h₁, done⟩ := carried even
  have set : (e.withCore d).setQuiet quiet = (e.setQuiet quiet).withCore { d with quiet } := rfl
  unfold withQuiet
  dsimp only
  rw [set, done]
  exact ⟨{ d₁ with quiet := d.quiet }, ⟨h₁.withQuiet _ _, h.loud, h.quiet⟩, rfl⟩

private theorem Apart.silent {c d : Core} (h : Apart before before' c d) {f : Core → Core}
    (blind : Core.Blind f) : Apart before before' (f c) (f d) :=
  ⟨h.toParallel.silent blind, (blind.quiet c).trans h.loud, (blind.quiet d).trans h.quiet⟩

private theorem apart_runRequests (h : Apart before before' e.core d) (kind : RequestKind) :
    Alike (Apart before before') (e.runRequests kind) ((e.withCore d).runRequests kind) := by
  have requests : (e.withCore d).core.requests = e.core.requests :=
    (Core.eq_of_hushed Core.requests h.hushed fun _ => rfl).symm
  have taken : (e.withCore d).takeRequests kind = ((e.takeRequests kind).1,
      (e.takeRequests kind).2.withCore { d with requests := (e.core.requests.take kind).2 }) := by
    unfold takeRequests
    rw [requests]
    rfl
  have apart : Apart before before' (e.takeRequests kind).2.core
      { d with requests := (e.core.requests.take kind).2 } :=
    h.silent (f := fun c => { c with requests := (e.core.requests.take kind).2 }) {}
  rw [runRequests_eq, runRequests_eq, takenUp, takenUp, taken, requests]
  split
  · exact ⟨_, apart, rfl⟩
  · have noted := apart.silent (f := (·.note
      (.ran kind (.ofText (e.core.requests.pending kind))))) {}
    exact apart_withQuiet (e := e.takenUp kind) noted _
      fun even => (Core.simulation_even _ _).runBatch even kind _

private theorem apart_runTimers (h : Apart before before' e.core d) (now : Nat) :
    AlikeWith (Apart before before') (e.runTimers now) ((e.withCore d).runTimers now) := by
  have timers : (e.withCore d).core.timers = e.core.timers :=
    (Core.eq_of_hushed Core.timers h.hushed fun _ => rfl).symm
  have taken := h.silent (f := fun c => { c with timers := (e.core.timers.takeReady now).2 }) {}
  obtain ⟨d₁, h₁, ran⟩ := alike_foldl (e := e.withoutReady now) (e.readyKinds now)
    (fun kind _ _ _ apart => apart_runRequests apart kind) taken
  refine ⟨d₁, h₁, ?_⟩
  unfold runTimers
  rw [timers]
  exact Prod.ext ran rfl

end

/-! ### Sequences -/

/-- What happens to an engine: the host asks for something, or files, the environment and the time
change. -/
inductive Occasion where
  | ask (op : Operation)
  | outside (files : FileTree) (environment : Environment) (clock : Nat)

/-- What the host notices of an occasion. -/
structure Reaction where
  response : Response
  told : List Event

namespace Occasion

/-- The host asks to run the batches that are due. -/
def runsBatches : Occasion → Bool
  | ask op => op.runsBatches
  | outside .. => false

/-- The host asks to set the quiet mode. -/
def SetsQuiet : Occasion → Prop
  | ask op => op.SetsQuiet
  | outside .. => False

/-- What a quiet engine tells of what another one tells: batches apart, everything but notices. -/
def shown (o : Occasion) (told : List Event) : List Event :=
  if o.runsBatches then told else told.filter (!·.isNotice)

/-- What the host notices when the engine is quiet. -/
def quietly (o : Occasion) (r : Reaction) : Reaction := { r with told := o.shown r.told }

/-- Whatever a quiet engine does not tell is a notice. -/
def HidesNotices (o : Occasion) (r : Reaction) : Prop :=
  ∀ event ∈ r.told, event ∈ o.shown r.told ∨ ∃ n : Notice, event = n.event

end Occasion

/-- The engine after an occasion, and what it responded. -/
def meet (e : Engine) : Occasion → Engine × Response
  | .ask op => (e.perform op, e.respond op)
  | .outside files environment clock => ({ e with files, environment }.setClock clock, .done)

/-- The engine after an occasion, and what the host noticed of it. -/
def react (e : Engine) (o : Occasion) : Engine × Reaction :=
  let (after, response) := e.meet o
  (after, ⟨response, after.core.events.toList.drop e.core.events.size⟩)

/-- The engine after some occasions, and what the host noticed of each. -/
def follow : Engine → List Occasion → Engine × List Reaction
  | e, [] => (e, [])
  | e, o :: rest =>
    let (after, reaction) := e.react o
    let (last, reactions) := after.follow rest
    (last, reaction :: reactions)

/-- The second engine is the first one in quiet mode, but for what the host was told. -/
structure Muffled (e f : Engine) : Prop where
  settled : e.Settled
  debug : e.core.options.debug < 2
  engine : f = e.withCore f.core
  hushed : e.core.hushed = f.core.hushed
  loud : e.core.quiet = false
  quiet : f.core.quiet = true

namespace Muffled

variable {e f : Engine}

private theorem apart (h : e.Muffled f) : Apart e.core.events f.core.events e.core f.core :=
  ⟨.refl h.hushed, h.loud, h.quiet⟩

private theorem hushes (h : e.Muffled f) : Hushed e.core.events f.core.events e.core f.core := by
  have options : e.core.options = f.core.options :=
    Core.eq_of_hushed Core.options h.hushed fun _ => rfl
  exact ⟨.refl h.hushed, h.quiet, options ▸ h.debug⟩

/-- When both sides did the same they are as before, and the quiet one told what is to be kept. -/
theorem of_parallel (h : e.Muffled f) {op : Operation} (unset : ¬op.SetsQuiet)
    {keep : Event → Bool} {d : Core}
    (parallel : Parallel keep e.core.events f.core.events (e.perform op).core d)
    (quiet : d.quiet = true)
    (same : (f.perform op, f.respond op) = ((e.perform op).withCore d, e.respond op)) :
    (e.perform op).Muffled (f.perform op) ∧ f.respond op = e.respond op ∧
      ∃ told : List Event, Tells keep e.core.events f.core.events (e.perform op).core.events
        (f.perform op).core.events told := by
  obtain ⟨engine, response⟩ := Prod.mk.inj same
  obtain ⟨mode, level⟩ := e.setting.quiet_after unset
  have setting := setting_perform h.settled op
  rw [engine]
  refine ⟨⟨h.settled.perform op, ?_, rfl, parallel.hushed, ?_, quiet⟩, response, parallel.told⟩
  · have options : (e.perform op).core.options = (e.setting.after op).options :=
      congrArg Setting.options setting
    rw [options, level]
    exact h.debug
  · have after : (e.perform op).core.quiet = (e.setting.after op).quiet :=
      congrArg Setting.quiet setting
    rw [after, mode]
    exact h.loud

/-- What is told on an occasion, and what the quiet one tells of it. -/
theorem meet (h : e.Muffled f) {o : Occasion} (unset : ¬o.SetsQuiet) :
    (e.meet o).1.Muffled (f.meet o).1 ∧ (f.meet o).2 = (e.meet o).2 ∧
      ∃ (keep : Event → Bool) (told : List Event), o.shown told = told.filter keep ∧
        Tells keep e.core.events f.core.events (e.meet o).1.core.events (f.meet o).1.core.events
          told := by
  cases o with
  | outside files environment clock =>
    have later := (Core.Blind.congr (f := fun c => { c with clock }) {}) h.hushed
    refine ⟨⟨h.settled.congr rfl rfl rfl rfl rfl rfl, h.debug, ?_, later, h.loud, h.quiet⟩, rfl,
      fun _ => true, [], rfl, Array.append_empty.symm, Array.append_empty.symm,
      List.forall_mem_nil _⟩
    rw [h.engine]
    rfl
  | ask op =>
    cases batches : op.runsBatches with
    | false =>
      obtain ⟨d, hushed, same⟩ := respond_mirror (Core.mirror_hushed _ _) h.hushes batches unset
      rw [← h.engine] at same
      obtain ⟨after, response, told, tells⟩ :=
        h.of_parallel unset hushed.toParallel hushed.quiet same
      refine ⟨after, response, _, told, ?_, tells⟩
      simp only [Occasion.shown, Occasion.runsBatches, batches, Bool.false_eq_true, if_false]
    -- Batches set the quiet mode themselves, so the two runs are alike in all but what came before.
    | true =>
      have alike : AlikeWith (Apart e.core.events f.core.events) (e.perform op, e.respond op)
          (f.perform op, f.respond op) := by
        cases op with
        | runTimers now =>
          have ran := AlikeWith.map (apart_runTimers h.apart now) Response.count
          rwa [← h.engine] at ran
        | runRequests kind =>
          have ran := Alike.pair (apart_runRequests h.apart kind) Response.done
          rwa [← h.engine] at ran
        | _ => cases batches
      obtain ⟨d, apart, same⟩ := alike
      obtain ⟨after, response, told, tells⟩ :=
        h.of_parallel unset apart.toParallel apart.quiet same
      refine ⟨after, response, _, told, ?_, tells⟩
      simp only [Occasion.shown, Occasion.runsBatches, batches, if_true, List.filter_true]

private theorem react (h : e.Muffled f) {o : Occasion} (unset : ¬o.SetsQuiet) :
    (e.react o).1.Muffled (f.react o).1 ∧ (f.react o).2 = o.quietly (e.react o).2 ∧
      o.HidesNotices (e.react o).2 := by
  obtain ⟨after, response, keep, told, shown, loud, quiet, notices⟩ := h.meet unset
  have tail (before : Array Event) (told : List Event) :
      (before ++ told.toArray).toList.drop before.size = told := by simp
  have left : (e.react o).2.told = told := by simp only [Engine.react, loud, tail]
  refine ⟨after, ?_, ?_⟩
  · simp only [Engine.react, Occasion.quietly, response, loud, quiet, tail, shown]
  · unfold Occasion.HidesNotices
    rw [left, shown]
    intro event mem
    exact (notices event mem).imp_left fun kept => List.mem_filter.mpr ⟨mem, kept⟩

private theorem follow (h : e.Muffled f) {occasions : List Occasion}
    (unset : ∀ o ∈ occasions, ¬o.SetsQuiet) :
    (e.follow occasions).1.Muffled (f.follow occasions).1 ∧
      (f.follow occasions).2 = List.zipWith Occasion.quietly occasions (e.follow occasions).2 ∧
      List.Forall₂ Occasion.HidesNotices occasions (e.follow occasions).2 := by
  induction occasions generalizing e f with
  | nil => exact ⟨h, rfl, .nil⟩
  | cons o rest ih =>
    obtain ⟨first, others⟩ := List.forall_mem_cons.mp unset
    obtain ⟨after, reaction, notices⟩ := h.react first
    obtain ⟨last, reactions, all⟩ := ih after others
    refine ⟨last, ?_, .cons notices all⟩
    simp only [Engine.follow, List.zipWith_cons_cons, reaction, reactions]

end Muffled

/-- An engine that is quiet does what it does when it is not, whatever happens to it as long as the
mode is not set again: it responds the same on every occasion, and ends up the same but for the mode
and for what the host was told. The host is told the same while batches run, and everything but the
notices otherwise. -/
theorem quiet_hides_notices {e : Engine} (h : e.Reachable) (debug : e.core.options.debug < 2)
    {occasions : List Occasion} (unset : ∀ o ∈ occasions, ¬o.SetsQuiet) :
    let loud := (e.setQuiet false).follow occasions
    let quiet := (e.setQuiet true).follow occasions
    quiet.2 = List.zipWith Occasion.quietly occasions loud.2 ∧
      List.Forall₂ Occasion.HidesNotices occasions loud.2 ∧
      quiet.1 = loud.1.withCore
        { loud.1.core with quiet := true, events := quiet.1.core.events } ∧
      loud.1.core.quiet = false := by
  have start : (e.setQuiet false).Muffled (e.setQuiet true) :=
    ⟨h.settled.congr rfl rfl rfl rfl rfl rfl, debug, rfl, rfl, rfl, rfl⟩
  obtain ⟨last, reactions, notices⟩ := start.follow unset
  have core := Core.eq_withQuiet_of_hushed last.hushed
  rw [last.quiet] at core
  exact ⟨reactions, notices, last.engine.trans (congrArg _ core), last.loud⟩

/-- A script that prints when it is shut down is loaded and unloaded again. -/
def visit : List Occasion :=
  [.ask (.load "a.lua" (some "weechat.register('a', '', '', '', '', 'bye', '')
function bye() print('bye') end")),
    .ask (.unloadNamed "a")]

/-- What the host is told of that by an engine that is not quiet. -/
def visitTold : List (List Event) :=
  [[.print none "lua: loading script \"a.lua\"",
      .print none "lua: registered script \"a\", version  ()", .callbacks "a",
      @Event.signal .engine Signal.scriptLoaded.name "a.lua"],
    [.print none "lua: unloading script \"a\"", .print none "lua: stdout/stderr (a): bye",
      @Event.signal .engine Signal.scriptUnloaded.name "a.lua",
      .print none "lua: script \"a\" unloaded"]]

set_option maxRecDepth 100000 in
/-- The case of a script that is loaded and unloaded. -/
theorem quiet_hides_notices_visit :
    let told (quiet : Bool) := ((bare.setQuiet quiet).follow visit).2.map Reaction.told
    told false = visitTold ∧
      told true =
        [[.callbacks "a", @Event.signal .engine Signal.scriptLoaded.name "a.lua"],
          [.print none "lua: stdout/stderr (a): bye",
            @Event.signal .engine Signal.scriptUnloaded.name "a.lua"]] := by
  have unset : ∀ o ∈ visit, ¬o.SetsQuiet := by
    simp [visit, Occasion.SetsQuiet, Operation.SetsQuiet]
  obtain ⟨reactions, -, -, -⟩ := quiet_hides_notices reachable_bare (by decide) unset
  have zipped (reactions : List Reaction) :
      (List.zipWith Occasion.quietly visit reactions).map Reaction.told =
        List.zipWith Occasion.shown visit (reactions.map Reaction.told) := by
    rw [List.map_zipWith, List.zipWith_map_right]
    rfl
  have loud : ((bare.setQuiet false).follow visit).2.map Reaction.told = visitTold := by
    decide +kernel
  refine ⟨loud, ?_⟩
  dsimp only
  rw [reactions, zipped, loud]
  decide

end LuaHost.Engine
