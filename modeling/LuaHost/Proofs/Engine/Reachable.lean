import LuaHost.Proofs.Engine.Load
import LuaHost.Proofs.Engine.Moves

/-!
# Engines that can come about

Every move leads from a settled engine to a settled one and uses numbers up only. So every engine
that can come about is settled between two operations, and every load gives a script a number and
a context that were never used before.
-/

namespace LuaHost.Engine

/-! ### Evaluations -/

/-- The engine with another evaluation in progress, or none. -/
def withEvaluation (e : Engine) (evaluation : Option Evaluation) : Engine :=
  e.updateCore fun c => { c with output := { c.output with evaluation } }

private theorem Kept.withEvaluation {e e' : Engine} (h : e.Kept e')
    (evaluation : Option Evaluation) :
    (e.withEvaluation evaluation).Kept (e'.withEvaluation evaluation) :=
  ⟨{ h.toSameAround with }, { h.core with evaluation := rfl }⟩

/-- When an evaluation ends, none is in progress; the rest is kept. -/
theorem kept_closeEvaluation (e : Engine) :
    (e.withEvaluation none).Kept e.closeEvaluation.1 := by
  have flushed := e.kept_flush.withEvaluation none
  have same (e : Engine) (output : Output) : (e.withEvaluation none).Kept
      (e.updateCore fun c => { c with output := { output with evaluation := none } }) :=
    ⟨⟨rfl, rfl, rfl, rfl, rfl, rfl⟩, { Core.Kept.refl _ with evaluation := rfl }⟩
  refine flushed.trans ?_
  unfold closeEvaluation
  dsimp only
  split <;> exact same _ _

/-- After an evaluation none is in progress, and the rest is kept. -/
theorem kept_evaluated {e : Engine} (h : e.Settled) (id : ScriptId) (evaluation : Evaluation)
    (arguments : List Argument) :
    (e.withEvaluation none).Kept (e.evaluated id evaluation arguments) := by
  have flushed := e.kept_flush
  have opened : (e.withEvaluation evaluation).Kept (e.openEvaluation evaluation) :=
    flushed.withEvaluation evaluation
  have called := kept_invoke (opened.core_closed h.closed)
    (opened.activeKnown h.activeKnown) id .ignored scratchFunction arguments
  exact ((opened.trans called).withEvaluation none).trans (kept_closeEvaluation _)

namespace Settled

variable {e e' : Engine}

/-! ### Loads -/

/-- A load that failed leaves a settled engine. -/
theorem spent (h : e.Settled) {lastId : Nat} (hl : e.core.registry.lastId ≤ lastId) :
    (e.spent lastId).Settled where
  wellFormed :=
    { increasing := h.wellFormed.increasing
      bounded := fun s hs => Nat.le_trans (h.wellFormed.bounded s hs) hl
      named := h.wellFormed.named
      indexed := h.wellFormed.indexed }
  complete := h.complete
  contexts := h.contexts
  distinct := h.distinct
  created := fun s hs => Nat.le_succ_of_le (h.created s hs)
  live := by
    have hl := h.live
    show e.core.created + 1 = e.core.destroyed + 1 + e.scripts.length
    omega
  loading := h.loading
  active := h.active

/-- The scripts after a load that succeeded. -/
theorem scripts_loaded (h : e.Settled) (filename : String) (about : Registration) :
    (e.loaded filename about).scripts =
      e.scripts ++ [⟨e.core.registry.nextId, filename, about, e.nextContext, true⟩] :=
  h.wellFormed.scripts_setComplete_add filename about e.nextContext

/-- A load that succeeded leaves a settled engine. -/
theorem loaded (h : e.Settled) (filename : String) {about : Registration}
    (free : e.core.registry.find? about.name = none) : (e.loaded filename about).Settled where
  wellFormed := (h.wellFormed.add free filename e.nextContext).setComplete _
  complete := by
    rw [h.scripts_loaded]
    intro s hs
    rcases List.mem_append.mp hs with hs | hs
    · exact h.complete s hs
    · obtain rfl := List.mem_singleton.mp hs
      rfl
  contexts := by
    rw [h.scripts_loaded, List.map_append, ← h.contexts]
    exact List.map_append
  distinct := by
    have fresh : e.nextContext ∉ e.scripts.map Script.context := h.contexts ▸ h.fresh
    rw [h.scripts_loaded, List.map_append]
    exact List.nodup_append.mpr ⟨h.distinct, List.nodup_singleton _, by
      rintro c hc _ hn rfl
      obtain rfl := List.mem_singleton.mp hn
      exact fresh hc⟩
  created := by
    rw [h.scripts_loaded]
    intro s hs
    rcases List.mem_append.mp hs with hs | hs
    · exact Nat.le_succ_of_le (h.created s hs)
    · obtain rfl := List.mem_singleton.mp hs
      exact Nat.le_refl _
  live := by
    have hl := h.live
    rw [h.scripts_loaded, List.length_append, List.length_singleton]
    show e.core.created + 1 = e.core.destroyed + _
    omega
  loading := h.loading
  active := h.active

/-- A load leaves the engine settled. -/
theorem loadSource (h : e.Settled) (filename : String) (source : ByteArray) (inFile : Bool) :
    (e.loadSource filename source inFile).1.Settled := by
  rcases loadSource_cases h filename source inFile with
    ⟨about, -, -, free, -, kept⟩ | ⟨failure, lastId, -, -, hl, kept⟩
  · exact (h.loaded filename free).of_kept kept
  · exact (h.spent hl).of_kept kept

/-! ### Moves -/

private theorem evaluated (h : e.Settled) (id : ScriptId) (evaluation : Evaluation)
    (arguments : List Argument) : (e.evaluated id evaluation arguments).Settled := by
  have none : (e.withEvaluation none).Settled := h.congr rfl rfl rfl rfl rfl rfl
  exact none.of_kept (kept_evaluated h id evaluation arguments)

/-- A call leaves the engine settled. -/
theorem invoke (h : e.Settled) (script : ScriptId) (kind : ResultKind) (function : String)
    (arguments : List Argument) : (e.invoke script kind function arguments).1.Settled :=
  h.of_kept (kept_invoke h.closed h.activeKnown script kind function arguments)

/-- Every move leads from a settled engine to a settled one. -/
theorem move (h : e.Settled) (m : e.Move e') : e'.Settled := by
  cases m with
  | deed d =>
    cases d with
    | load filename source inFile => exact h.loadSource filename source inFile
    | unload id => exact h.unload id
    | evaluate id evaluation arguments => exact h.evaluated id evaluation arguments
    | print | request | dump | files | setQuiet | setKeepEvaluation | setCheckLicense | scratch =>
      exact h.congr rfl rfl rfl rfl rfl rfl
  | takeRequests | note | takeTimers | discard => exact h.congr rfl rfl rfl rfl rfl rfl

/-- Moves leave the engine settled. -/
theorem moves (h : e.Settled) (ms : e.Moves e') : e'.Settled := by
  induction ms with
  | refl => exact h
  | tail _ m ih => exact ih.move m

/-- Every operation leaves the engine settled. -/
theorem perform (h : e.Settled) (op : Operation) : (e.perform op).Settled := by
  obtain ⟨script, kind, function, arguments, rfl⟩ | ⟨-, moves⟩ := e.perform_cases op
  · exact h.invoke script kind function arguments
  · exact h.moves moves

/-- Whatever comes about from a settled engine is settled. -/
theorem evolves (h : e.Settled) (he : e.Evolves e') : e'.Settled := by
  induction he with
  | refl => exact h
  | perform _ op ih => exact ih.perform op
  | outside => next ih => exact ih.congr rfl rfl rfl rfl rfl rfl

end Settled

/-! ### Numbers -/

/-- Numbers of scripts and of contexts may have been used up, and none was given back. -/
structure Grows (e e' : Engine) : Prop where
  lastId : e.core.registry.lastId ≤ e'.core.registry.lastId
  created : e.core.created ≤ e'.core.created

namespace Grows

variable {a b c : Engine}

/-- What grows over two stretches grows over both. -/
theorem trans (h : a.Grows b) (h' : b.Grows c) : a.Grows c :=
  ⟨Nat.le_trans h.lastId h'.lastId, Nat.le_trans h.created h'.created⟩

/-- Where no number is given out the counters stay as they are. -/
theorem of_eq (lastId : b.core.registry.lastId = a.core.registry.lastId)
    (created : b.core.created = a.core.created) : a.Grows b :=
  ⟨Nat.le_of_eq lastId.symm, Nat.le_of_eq created.symm⟩

private theorem of_kept (h : a.Kept b) : a.Grows b :=
  of_eq (congrArg Registry.lastId h.core.registry) h.core.created

end Grows

private theorem Settled.grows_move {e e' : Engine} (h : e.Settled) (m : e.Move e') :
    e.Grows e' := by
  cases m with
  | deed d =>
    cases d with
    | load filename source inFile =>
      rcases loadSource_cases h filename source inFile with
        ⟨about, -, -, -, -, kept⟩ | ⟨failure, lastId, -, -, hl, kept⟩
      · have grown : e.Grows (e.loaded filename about) := ⟨Nat.le_succ _, Nat.le_succ _⟩
        exact grown.trans (.of_kept kept)
      · have grown : e.Grows (e.spent lastId) := ⟨hl, Nat.le_succ _⟩
        exact grown.trans (.of_kept kept)
    | unload id =>
      cases hs : e.script? id with
      | none =>
        simp only [Engine.unload, hs]
        exact .of_eq rfl rfl
      | some s =>
        have grown : e.Grows (e.unloaded s) := .of_eq (Registry.lastId_remove _ _) rfl
        exact grown.trans (.of_kept (kept_unload h.closed h.activeKnown hs).2)
    | evaluate id evaluation arguments =>
      have grown : e.Grows (e.withEvaluation none) := .of_eq rfl rfl
      exact grown.trans (.of_kept (kept_evaluated h id evaluation arguments))
    | print | request | dump | files | setQuiet | setKeepEvaluation | setCheckLicense | scratch =>
      exact .of_eq rfl rfl
  | takeRequests | note | takeTimers | discard => exact .of_eq rfl rfl

/-- Moves give no number back. -/
theorem Settled.grows_moves {e e' : Engine} (h : e.Settled) (ms : e.Moves e') : e.Grows e' := by
  induction ms with
  | refl => exact .of_eq rfl rfl
  | tail ms m ih => exact ih.trans ((h.moves ms).grows_move m)

private theorem Settled.grows_perform {e : Engine} (h : e.Settled) (op : Operation) :
    e.Grows (e.perform op) := by
  obtain ⟨script, kind, function, arguments, rfl⟩ | ⟨-, moves⟩ := e.perform_cases op
  · exact .of_kept (kept_invoke h.closed h.activeKnown script kind function arguments)
  · exact h.grows_moves moves

private theorem Settled.grows {e e' : Engine} (h : e.Settled) (he : e.Evolves e') : e.Grows e' := by
  induction he with
  | refl => exact .of_eq rfl rfl
  | perform earlier op ih => exact ih.trans ((h.evolves earlier).grows_perform op)
  | outside _ files environment clock ih => exact ih.trans (.of_eq rfl rfl)

private theorem Evolves.trans {a b c : Engine} (h : a.Evolves b) (h' : b.Evolves c) :
    a.Evolves c := by
  induction h' with
  | refl => exact h
  | perform _ op ih => exact ih.perform op
  | outside _ files environment clock ih => exact ih.outside files environment clock

/-- What comes about from a reachable engine is reachable. -/
theorem Reachable.evolves {e e' : Engine} (h : e.Reachable) (he : e.Evolves e') :
    e'.Reachable := by
  obtain ⟨options, license, files, environment, budget, earlier⟩ := h
  exact .of_new options license files environment budget (earlier.trans he)

/-- An operation leads to a reachable engine. -/
theorem Reachable.perform {e : Engine} (h : e.Reachable) (op : Operation) :
    (e.perform op).Reachable := h.evolves (Evolves.refl.perform op)

/-- Reachable engines are settled. -/
theorem Reachable.settled {e : Engine} (h : e.Reachable) : e.Settled := by
  obtain ⟨options, license, files, environment, budget, he⟩ := h
  exact (settled_new options license files environment budget).evolves he

/-- The number that the next script gets and the context that the next load creates were never
used before. -/
theorem Reachable.unused {e₀ e : Engine} (h : e₀.Reachable) (he : e₀.Evolves e) {s : Script}
    (hs : s ∈ e₀.scripts) :
    s.id.number < e.core.registry.nextId.number ∧ s.context.number < e.nextContext.number := by
  have grown := h.settled.grows he
  constructor
  · exact Nat.lt_succ_of_le (Nat.le_trans (h.settled.wellFormed.bounded s hs) grown.lastId)
  · exact Nat.lt_succ_of_le (Nat.le_trans (h.settled.created s hs) grown.created)

/-! ### Between operations -/

/-- Between two operations the scripts have names, contexts and increasing numbers of their own,
names lead to the scripts that have them, every script is complete, and the contexts that are
alive are as many as the scripts. -/
theorem registry_consistent {e : Engine} (h : e.Reachable) :
    (e.scripts.map Script.name).Nodup ∧
      (e.scripts.map Script.context).Nodup ∧
      (e.scripts.Pairwise fun s t => s.id.number < t.id.number) ∧
      (∀ s ∈ e.scripts, s.id.number ≤ e.core.registry.lastId) ∧
      (∀ name id, e.find? name = some id ↔ ∃ s ∈ e.scripts, s.name = name ∧ s.id = id) ∧
      (∀ s ∈ e.scripts, s.complete = true) ∧
      e.core.destroyed ≤ e.core.created ∧
      e.core.live = e.scripts.length := by
  have settled := h.settled
  have balance := settled.live
  refine ⟨settled.wellFormed.named, settled.distinct, settled.wellFormed.increasing,
    settled.wellFormed.bounded, settled.wellFormed.indexed, settled.complete, ?_, ?_⟩
  · omega
  · rw [Core.live]
    omega

/-- An engine whose tree holds no scripts. -/
def bare : Engine :=
  new ⟨"h", false, false, 0⟩ "GPL3" (.empty ["w"]) ⟨"/home/user", none, "/home/user"⟩ 1000

/-- That engine is new. -/
theorem reachable_bare : bare.Reachable := .of_new _ _ _ _ _ .refl

/-- A source that registers under a name and does nothing else. -/
def registers (name : String) : String :=
  "weechat.register('" ++ name ++ "', '', '', '', '', '', '')"

/-- An engine in which the second of three loads failed when its script had registered. -/
def gapped : Engine :=
  ((bare.perform (.load "a.lua" (some (registers "a")))).perform
    (.load "b.lua" (some (registers "b" ++ " error('no')")))).perform
    (.load "c.lua" (some (registers "c")))

private theorem reachable_gapped : gapped.Reachable :=
  ((reachable_bare.perform _).perform _).perform _

set_option maxRecDepth 100000 in
/-- The case of two scripts with a failed load between them. -/
theorem registry_consistent_gapped :
    gapped.scripts.map (fun s => (s.id.number, s.name)) = [(1, "a"), (3, "c")] ∧
      gapped.find? "b" = none ∧ gapped.find? "c" = some ⟨3⟩ ∧
      (∃ s ∈ gapped.scripts, s.name = "c" ∧ s.id = ⟨3⟩) ∧
      (gapped.scripts.map Script.context).Nodup ∧
      gapped.core.created = 3 ∧ gapped.core.destroyed = 1 ∧
      gapped.core.live = gapped.scripts.length := by
  obtain ⟨-, contexts, -, -, indexed, -, -, live⟩ := registry_consistent reachable_gapped
  obtain ⟨listed, second, third, created, destroyed⟩ :
      gapped.scripts.map (fun s => (s.id.number, s.name)) = [(1, "a"), (3, "c")] ∧
        gapped.find? "b" = none ∧ gapped.find? "c" = some ⟨3⟩ ∧
        gapped.core.created = 3 ∧ gapped.core.destroyed = 1 := by
    decide +kernel
  exact ⟨listed, second, third, (indexed "c" ⟨3⟩).mp third, contexts, created, destroyed, live⟩

/-! ### The outcome of a load -/

/-- A script was added under a number and a context that were never used before. -/
structure Added (e e' : Engine) (id : ScriptId) (filename : String) (about : Registration) :
    Prop where
  scripts : e'.scripts = e.scripts ++ [⟨id, filename, about, e.nextContext, true⟩]
  names : ∀ name, e'.find? name = if name = about.name then some id else e.find? name
  unused : ∀ (e₀ : Engine) (s : Script), e₀.Reachable → e₀.Evolves e → s ∈ e₀.scripts →
    s.id.number < id.number ∧ s.context.number < e.nextContext.number
  live : e'.core.live = e.core.live + 1
  sent : e'.core.sent = e.core.sent ++ [(Signal.scriptLoaded.name, filename)]

/-- The scripts, their names and the number of contexts are as they were, and the engine sent no
signal. -/
structure Untouched (e e' : Engine) : Prop where
  scripts : e'.scripts = e.scripts
  byName : e'.core.registry.byName = e.core.registry.byName
  live : e'.core.live = e.core.live
  sent : e'.core.sent = e.core.sent

private theorem added_loaded {e e' : Engine} (h : e.Reachable) {filename : String}
    {about : Registration} (hk : (e.loaded filename about).Kept e') :
    e.Added e' e.core.registry.nextId filename about where
  scripts := by
    rw [← h.settled.scripts_loaded, scripts, hk.core.registry]
    rfl
  names := by
    intro name
    rw [find?, hk.core.registry]
    exact e.core.registry.find?_add filename name about e.nextContext
  unused := fun e₀ s h₀ he hs => h₀.unused he hs
  live := by
    have balance := h.settled.live
    rw [Core.live, hk.core.created, hk.core.destroyed]
    show e.core.created + 1 - e.core.destroyed = e.core.created - e.core.destroyed + 1
    omega
  sent := hk.core.sent.trans (Core.sent_emit _ _)

/-- An engine that is kept is untouched. -/
theorem untouched_of_kept {e e' : Engine} (h : e.Kept e') : e.Untouched e' where
  scripts := congrArg Registry.scripts h.core.registry
  byName := congrArg Registry.byName h.core.registry
  live := by rw [Core.live, h.core.created, h.core.destroyed, Core.live]
  sent := h.core.sent

/-- A load that failed leaves the engine untouched, whatever numbers it used up. -/
theorem untouched_spent {e e' : Engine} {lastId : Nat} (h : (e.spent lastId).Kept e') :
    e.Untouched e' where
  scripts := by
    rw [scripts, h.core.registry]
    rfl
  byName := by
    rw [h.core.registry]
    rfl
  live := by
    rw [Core.live, h.core.created, h.core.destroyed]
    exact Nat.add_sub_add_right _ 1 _
  sent := h.core.sent

/-- A load succeeds exactly when its source can be read, runs through and registers; it registers
once then, and one script is added. A load that fails leaves everything untouched. -/
theorem load_all_or_nothing {e : Engine} (h : e.Reachable) (filename : String)
    (code : Option String) :
    ((∃ id, (e.load filename code).2 = .ok id) ↔
      ∃ source, e.sourceOf filename code = .ok source ∧
        e.sourceFailure? filename source = none ∧
        Core.accepted (e.sourceDialogue filename source) ≠ []) ∧
    (∀ id, (e.load filename code).2 = .ok id →
      ∃ source about, e.sourceOf filename code = .ok source ∧
        Core.accepted (e.sourceDialogue filename source) = [about] ∧
        e.Added (e.load filename code).1 id filename about) ∧
    (∀ failure, (e.load filename code).2 = .error failure →
      e.Untouched (e.load filename code).1) := by
  unfold load
  cases hs : e.sourceOf filename code with
  | error error =>
    refine ⟨⟨?_, ?_⟩, ?_, ?_⟩
    · rintro ⟨id, hid⟩
      cases hid
    · rintro ⟨source, hsource, -⟩
      cases hsource
    · intro id hid
      cases hid
    · intro failure _
      exact untouched_of_kept (e.kept_complain _)
  | ok source =>
    dsimp only
    rcases loadSource_cases h.settled filename source code.isNone with
      ⟨about, runs, accepted, -, result, kept⟩ | ⟨failure, lastId, fails, result, -, kept⟩
    · rw [result]
      refine ⟨⟨?_, ?_⟩, ?_, ?_⟩
      · rintro -
        exact ⟨source, rfl, runs, by simp [accepted]⟩
      · rintro -
        exact ⟨_, rfl⟩
      · intro id hid
        obtain rfl := Except.ok.inj hid
        exact ⟨source, about, rfl, accepted, added_loaded h kept⟩
      · intro failure hf
        cases hf
    · rw [result]
      refine ⟨⟨?_, ?_⟩, ?_, ?_⟩
      · rintro ⟨id, hid⟩
        cases hid
      · rintro ⟨_, hsource, runs, accepted⟩
        obtain rfl := Except.ok.inj hsource
        rcases fails with fails | fails
        · exact absurd runs fails
        · exact absurd fails accepted
      · intro id hid
        cases hid
      · intro _ _
        exact untouched_spent kept

set_option maxRecDepth 100000 in
/-- Of three loads one registers, one fails when its script has registered, and one runs to its end
without a registration. -/
theorem load_all_or_nothing_gapped :
    let registered := gapped.load "d.lua" (some (registers "d"))
    let failed := gapped.load "e.lua" (some (registers "e" ++ " error('no')"))
    let silent := gapped.load "f.lua" (some "x = 1")
    (registered.2 = .ok ⟨4⟩ ∧ ∃ source about,
        gapped.sourceOf "d.lua" (some (registers "d")) = .ok source ∧
        Core.accepted (gapped.sourceDialogue "d.lua" source) = [about] ∧
        gapped.Added registered.1 ⟨4⟩ "d.lua" about) ∧
      (failed.2 = .error (.source "e.lua" "runtime error: e.lua:1: no\nstack traceback:") ∧
        gapped.Untouched failed.1) ∧
      silent.2 = .error (.unregistered "f.lua") ∧ gapped.Untouched silent.1 := by
  intro registered failed silent
  obtain ⟨added, raised, missing⟩ : registered.2 = .ok ⟨4⟩ ∧
      failed.2 = .error (.source "e.lua" "runtime error: e.lua:1: no\nstack traceback:") ∧
      silent.2 = .error (.unregistered "f.lua") := by
    decide +kernel
  exact ⟨⟨added, (load_all_or_nothing reachable_gapped "d.lua" _).2.1 _ added⟩,
    ⟨raised, (load_all_or_nothing reachable_gapped "e.lua" _).2.2 _ raised⟩,
    missing, (load_all_or_nothing reachable_gapped "f.lua" _).2.2 _ missing⟩

end LuaHost.Engine
