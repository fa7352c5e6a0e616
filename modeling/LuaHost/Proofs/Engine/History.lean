import LuaHost.Proofs.Engine.Ambient
import LuaHost.Proofs.Engine.Unload
import Mathlib.Data.List.Induction

/-!
# Histories of scripts

An engine works in small steps, of which some bring a script in and some take one away. A history is
a run of such steps together with the scripts that came and went, in order. The registry holds what
came and did not go, and the host was told of every turn and of nothing else.
-/

namespace LuaHost.Engine

/-- A script comes in by a load, or it goes by an unload. -/
inductive Turn where
  | came (s : Script)
  | went (s : Script)
  deriving DecidableEq

namespace Turn

/-- What the host is told about a turn. -/
def signal : Turn → String × String
  | came s => (Signal.scriptLoaded.name, s.filename)
  | went s => (Signal.scriptUnloaded.name, s.filename)

/-- The scripts after a turn. -/
def after (scripts : List Script) : Turn → List Script
  | came s => scripts ++ [s]
  | went s => scripts.filter (· ≠ s)

/-- A script that was there or came in is there or went. -/
theorem mem_foldl_after_or_went {scripts : List Script} {turns : List Turn} {s : Script}
    (h : s ∈ scripts ∨ came s ∈ turns) : s ∈ turns.foldl after scripts ∨ went s ∈ turns := by
  induction turns using List.reverseRecOn with
  | nil => simpa using h
  | append_singleton turns turn ih =>
    rw [List.foldl_concat, List.mem_append, List.mem_singleton]
    have earlier : (s ∈ scripts ∨ came s ∈ turns) ∨ came s = turn := by
      simpa [or_assoc] using h
    cases turn with
    | came t =>
      rw [after, List.mem_append, List.mem_singleton]
      rcases earlier with before | new
      · have := ih before
        tauto
      · exact .inl (.inr (Turn.came.inj new))
    | went t =>
      rw [after, List.mem_filter]
      by_cases same : s = t
      · exact .inr (.inr (congrArg went same))
      · have := ih (earlier.resolve_right nofun)
        simpa [same] using this

/-- A script that is there was there before or came in. -/
theorem mem_of_mem_foldl_after {scripts : List Script} {turns : List Turn} {s : Script}
    (h : s ∈ turns.foldl after scripts) : s ∈ scripts ∨ came s ∈ turns := by
  induction turns using List.reverseRecOn with
  | nil => exact .inl h
  | append_singleton turns turn ih =>
    rw [List.foldl_concat] at h
    rw [List.mem_append, List.mem_singleton]
    cases turn with
    | came t =>
      rcases List.mem_append.mp h with there | new
      · have := ih there
        tauto
      · exact .inr (.inr (congrArg came (List.mem_singleton.mp new)))
    | went t =>
      have := ih (List.mem_filter.mp h).1
      tauto

end Turn

/-- The scripts are the same, the engine sent no signal on its own account, and it is closed if it
was before. -/
structure SameScripts (e e' : Engine) : Prop where
  scripts : e'.scripts = e.scripts
  sent : e'.core.sent = e.core.sent
  closed : e'.closed = e.closed

private theorem SameScripts.of_kept {e e' : Engine} (h : e.Kept e') : e.SameScripts e' :=
  ⟨congrArg Registry.scripts h.core.registry, h.core.sent, h.closed⟩

/-- One step of an engine, and which script it brings in or takes away. An engine is closed only
when no script is left. -/
inductive Episode : Engine → List Turn → Engine → Prop where
  | load {e : Engine} {filename : String} {source : ByteArray} {inFile : Bool} {id : ScriptId}
      {s : Script} (loaded : (e.loadSource filename source inFile).2 = .ok id)
      (new : (e.loadSource filename source inFile).1.script? id = some s) :
      Episode e [.came s] (e.loadSource filename source inFile).1
  | unload {e : Engine} {s : Script} (registered : e.script? s.id = some s) :
      Episode e [.went s] (e.unload s.id).1
  | call (e : Engine) (script : ScriptId) (kind : ResultKind) (function : String)
      (arguments : List Argument) : Episode e [] (e.invoke script kind function arguments).1
  | aside {e e' : Engine} (m : e.Move e') (same : e.SameScripts e') : Episode e [] e'
  | close {e : Engine} (emptied : e.scripts = []) : Episode e [] e.discarded
  | outside (e : Engine) (files : FileTree) (environment : Environment) (clock : Nat) :
      Episode e [] ({ e with files, environment }.setClock clock)

/-- Any number of steps, with the scripts that came and went. -/
inductive History (e : Engine) : List Turn → Engine → Prop where
  | refl : History e [] e
  | step {turns more : List Turn} {b c : Engine} (h : History e turns b) (s : Episode b more c) :
      History e (turns ++ more) c

/-! ### What a history comes to -/

/-- The registry and the signals of the second engine are as the turns tell. -/
structure Accounts (e : Engine) (turns : List Turn) (e' : Engine) : Prop where
  settled : e'.Settled
  scripts : e'.scripts = turns.foldl Turn.after e.scripts
  sent : e'.core.sent = e.core.sent ++ turns.map Turn.signal

private theorem SameScripts.accounts {e e' : Engine} (h : e.SameScripts e') (settled : e'.Settled) :
    e.Accounts [] e' := ⟨settled, h.scripts, h.sent.trans (List.append_nil _).symm⟩

/-- The script that a load of a registration brings in. -/
def newcomer (e : Engine) (filename : String) (about : Registration) : Script :=
  ⟨e.core.registry.nextId, filename, about, e.nextContext, true⟩

/-- A load adds its script behind those that are there. -/
theorem scripts_of_loaded {e e' : Engine} (h : e.Settled) {filename : String}
    {about : Registration} (kept : (e.loaded filename about).Kept e') :
    e'.scripts = e.scripts ++ [e.newcomer filename about] :=
  (congrArg Registry.scripts kept.core.registry).trans (h.scripts_loaded filename about)

/-- The script that a load brought in is found under its number. -/
theorem script?_of_loaded {e e' : Engine} (h : e.Settled) {filename : String}
    {about : Registration} (kept : (e.loaded filename about).Kept e') (settled : e'.Settled) :
    e'.script? e.core.registry.nextId = some (e.newcomer filename about) := by
  have mem : e.newcomer filename about ∈ e'.scripts := by
    rw [scripts_of_loaded h kept]
    exact List.mem_append_right _ (List.mem_singleton_self _)
  exact (settled.wellFormed.get?_eq_some_iff _ _).mpr ⟨mem, rfl⟩

private theorem accounts_load {e : Engine} (h : e.Settled) {filename : String} {source : ByteArray}
    {inFile : Bool} {id : ScriptId} {s : Script}
    (loaded : (e.loadSource filename source inFile).2 = .ok id)
    (new : (e.loadSource filename source inFile).1.script? id = some s) :
    e.Accounts [.came s] (e.loadSource filename source inFile).1 := by
  have settled := h.loadSource filename source inFile
  rcases loadSource_cases h filename source inFile with
    ⟨about, -, -, -, result, kept⟩ | ⟨failure, lastId, -, result, -, -⟩
  · obtain rfl := Except.ok.inj (result.symm.trans loaded)
    obtain rfl := Option.some.inj (new.symm.trans (script?_of_loaded h kept settled))
    exact ⟨settled, scripts_of_loaded h kept, kept.core.sent.trans (Core.sent_emit _ _)⟩
  · rw [result] at loaded
    cases loaded

/-- An unload takes one script away. -/
theorem scripts_unload {e : Engine} (h : e.Settled) {s : Script}
    (registered : e.script? s.id = some s) :
    (e.unload s.id).1.scripts = e.scripts.filter (·.id ≠ s.id) :=
  (congrArg Registry.scripts (kept_unload h.closed h.activeKnown registered).2.core.registry).trans
    (Registry.scripts_remove _ _)

private theorem accounts_unload {e : Engine} (h : e.Settled) {s : Script}
    (registered : e.script? s.id = some s) : e.Accounts [.went s] (e.unload s.id).1 := by
  have kept := (kept_unload h.closed h.activeKnown registered).2
  have mem := (h.wellFormed.get?_eq_some_iff s.id s).mp registered
  refine ⟨h.unload s.id, ?_, kept.core.sent.trans (Core.sent_emit _ _)⟩
  rw [scripts_unload h registered]
  -- Scripts that differ have different numbers.
  refine List.filter_congr fun t ht => decide_eq_decide.mpr (not_congr ?_)
  constructor
  · intro number
    exact h.wellFormed.eq_of_id ht mem.1 number
  · intro same
    exact congrArg Script.id same

private theorem Episode.accounts {e e' : Engine} {turns : List Turn} (h : e.Settled)
    (step : Episode e turns e') : e.Accounts turns e' := by
  cases step with
  | load loaded new => exact accounts_load h loaded new
  | unload registered => exact accounts_unload h registered
  | call script kind function arguments =>
    have kept := kept_invoke h.closed h.activeKnown script kind function arguments
    exact (SameScripts.of_kept kept).accounts (h.invoke script kind function arguments)
  | aside m same => exact same.accounts (h.move m)
  | close => exact ⟨h.move (.discard e), rfl, (List.append_nil _).symm⟩
  | outside files environment clock =>
    exact ⟨h.congr rfl rfl rfl rfl rfl rfl, rfl, (List.append_nil _).symm⟩

/-- A step that closes the engine is one that leaves no script behind. -/
theorem Episode.closed_or {e e' : Engine} {turns : List Turn} (h : e.Settled)
    (step : Episode e turns e') : e'.closed = e.closed ∨ e'.closed = true ∧ e'.scripts = [] := by
  cases step with
  | @load filename source inFile id s loaded new =>
    exact .inl (congrArg Setting.closed (stays_loadSource h filename source inFile).setting)
  | @unload s registered => exact .inl (congrArg Setting.closed (stays_unload h s.id).setting)
  | call script kind function arguments =>
    exact .inl (kept_invoke h.closed h.activeKnown script kind function arguments).closed
  | aside m same => exact .inl same.closed
  | close emptied => exact .inr ⟨rfl, emptied⟩
  | outside => exact .inl rfl

namespace History

variable {a b c : Engine} {turns more : List Turn}

/-- One episode is a history. -/
theorem single (s : Episode a turns b) : a.History turns b := by
  have h := History.refl.step s
  rwa [List.nil_append] at h

private theorem aside (h : a.History turns b) (m : b.Move c) (same : b.SameScripts c) :
    a.History turns c := by
  have longer := h.step (.aside m same)
  rwa [List.append_nil] at longer

/-- One history goes on where the other one ends. -/
theorem trans (h : a.History turns b) (h' : b.History more c) : a.History (turns ++ more) c := by
  induction h' with
  | refl => rwa [List.append_nil]
  | step _ s ih =>
    rw [← List.append_assoc]
    exact ih.step s

/-- A history accounts for every script that came and went. -/
theorem accounts (settled : a.Settled) (h : a.History turns b) : a.Accounts turns b := by
  induction h with
  | refl => exact ⟨settled, rfl, (List.append_nil _).symm⟩
  | step _ s ih =>
    have last := s.accounts ih.settled
    refine ⟨last.settled, ?_, ?_⟩
    · rw [last.scripts, ih.scripts, List.foldl_append]
    · rw [last.sent, ih.sent, List.map_append, List.append_assoc]

/-- A script that went was unloaded when it did. -/
theorem exists_unload (h : a.History turns c) {s : Script} (went : .went s ∈ turns) :
    ∃ before later b, turns = before ++ .went s :: later ∧ a.History before b ∧
      b.script? s.id = some s ∧ (b.unload s.id).1.History later c := by
  induction h with
  | refl => cases went
  | @step turns more b c earlier step ih =>
    rcases List.mem_append.mp went with before | now
    · obtain ⟨front, rest, b', split, h₁, registered, h₂⟩ := ih before
      refine ⟨front, rest ++ more, b', ?_, h₁, registered, h₂.step step⟩
      rw [split, List.append_assoc, List.cons_append]
    · cases step with
      | unload registered =>
        obtain rfl := Turn.went.inj (List.mem_singleton.mp now)
        exact ⟨turns, [], b, rfl, earlier, registered, .refl⟩
      | load => cases List.mem_singleton.mp now
      | call | aside | close | outside => cases now

/-- An engine that was closed had no script left when it was. -/
theorem exists_close (h : a.History turns c) (settled : a.Settled) (opened : a.closed = false)
    (closed : c.closed = true) :
    ∃ before later b, turns = before ++ later ∧ a.History before b ∧ b.closed = true ∧
      b.scripts = [] ∧ b.History later c := by
  induction h with
  | refl =>
    rw [opened] at closed
    cases closed
  | @step turns more b c earlier step ih =>
    by_cases before : b.closed = true
    · obtain ⟨front, rest, b', split, h₁, closed', empty, h₂⟩ := ih before
      exact ⟨front, rest ++ more, b', by rw [split, List.append_assoc], h₁, closed', empty,
        h₂.step step⟩
    · rcases step.closed_or (earlier.accounts settled).settled with still | ⟨now, empty⟩
      · exact absurd (still.symm.trans closed) before
      · exact ⟨turns ++ more, [], c, (List.append_nil _).symm, earlier.step step, now, empty, .refl⟩

end History

/-! ### Operations have histories -/

/-- Deeds have a history: whoever does one brings a script in, takes one away or does neither. -/
theorem Settled.history_deed {e e' : Engine} (h : e.Settled) (d : e.Deed e') :
    ∃ turns, e.History turns e' := by
  have aside (same : e.SameScripts e') : ∃ turns, e.History turns e' :=
    ⟨[], .single (.aside (.deed d) same)⟩
  cases d with
  | load filename source inFile =>
    have stays := stays_loadSource h filename source inFile
    rcases loadSource_cases h filename source inFile with
      ⟨about, -, -, -, result, kept⟩ | ⟨failure, lastId, -, -, -, kept⟩
    · exact ⟨_, .single (.load result (script?_of_loaded h kept stays.settled))⟩
    · have untouched := untouched_spent kept
      exact aside ⟨untouched.scripts, untouched.sent, congrArg Setting.closed stays.setting⟩
  | unload id =>
    cases found : e.script? id with
    | none =>
      have nothing : (e.unload id).1 = e := by simp only [Engine.unload, found]
      rw [nothing]
      exact ⟨[], .refl⟩
    | some s =>
      obtain rfl := Registry.id_of_get? found
      exact ⟨_, .single (.unload found)⟩
  | evaluate id evaluation arguments =>
    have kept := kept_evaluated h id evaluation arguments
    exact aside ⟨congrArg Registry.scripts kept.core.registry, kept.core.sent, kept.closed⟩
  | print line => exact aside ⟨rfl, (Core.kept_print _ line).sent, rfl⟩
  | request | dump | files | setQuiet | setKeepEvaluation | setCheckLicense | scratch =>
    exact aside ⟨rfl, rfl, rfl⟩

private theorem Settled.history_deeds {e e' : Engine} (h : e.Settled) (ds : e.Deeds e') :
    ∃ turns, e.History turns e' := by
  induction ds with
  | refl => exact ⟨[], .refl⟩
  | tail ds d ih =>
    obtain ⟨turns, earlier⟩ := ih
    obtain ⟨more, last⟩ := (earlier.accounts h).settled.history_deed d
    exact ⟨turns ++ more, earlier.trans last⟩

private theorem Settled.history_runRequests {e : Engine} (h : e.Settled) (kind : RequestKind) :
    ∃ turns, e.History turns (e.runRequests kind) := by
  have taken : e.History [] (e.takeRequests kind).2 :=
    .single (.aside (.takeRequests e kind) ⟨rfl, rfl, rfl⟩)
  rcases e.runRequests_deeds kind with ⟨-, same⟩ | deeds
  · rw [same]
    exact ⟨[], taken⟩
  · have noted : e.History [] (e.takenUp kind) := taken.aside (.note _ _) ⟨rfl, rfl, rfl⟩
    obtain ⟨turns, ran⟩ := (noted.accounts h).settled.history_deeds deeds
    exact ⟨[] ++ turns, noted.trans ran⟩

private theorem Settled.history_runTimers {e : Engine} (h : e.Settled) (now : Nat) :
    ∃ turns, e.History turns (e.runTimers now).1 := by
  have taken : e.History [] (e.withoutReady now) :=
    .single (.aside (.takeTimers e now) ⟨rfl, rfl, rfl⟩)
  rw [runTimers_eq]
  refine List.foldlRecOn (motive := fun b => ∃ turns, e.History turns b) (e.readyKinds now) _
    ⟨[], taken⟩ fun b earlier kind _ => ?_
  obtain ⟨turns, earlier⟩ := earlier
  obtain ⟨more, ran⟩ := (earlier.accounts h).settled.history_runRequests kind
  exact ⟨turns ++ more, earlier.trans ran⟩

/-! ### Closing -/

/-- The unload of the oldest script goes through and leaves the ones after it. -/
theorem unload_oldest {e : Engine} (h : e.Settled) {s : Script} {rest : List Script}
    (split : e.scripts = s :: rest) :
    e.core.registry.first? = some s.id ∧ e.script? s.id = some s ∧
      ∃ e', e.unload s.id = (e', .ok ()) ∧ e'.Settled ∧ e'.scripts = rest := by
  have first : e.core.registry.first? = some s.id := by
    show e.scripts.head?.map Script.id = _
    rw [split]
    rfl
  have mem : s ∈ e.scripts := split ▸ List.mem_cons_self
  have registered : e.script? s.id = some s :=
    (h.wellFormed.get?_eq_some_iff s.id s).mpr ⟨mem, rfl⟩
  have result := (kept_unload h.closed h.activeKnown registered).1
  refine ⟨first, registered, _, Prod.ext rfl result, h.unload s.id, ?_⟩
  -- No script stands in the registry twice.
  have others : ∀ t ∈ rest, t ≠ s := by
    have distinct := h.wellFormed.nodup_ids.of_map
    change e.scripts.Nodup at distinct
    rw [split] at distinct
    rintro t there rfl
    exact (List.nodup_cons.mp distinct).1 there
  rw [(accounts_unload h registered).scripts, split]
  show (s :: rest).filter (· ≠ s) = rest
  rw [List.filter_cons_of_neg (by simp)]
  exact List.filter_eq_self.mpr fun t there => decide_eq_true (others t there)

/-- Unloading the oldest script as often as there are scripts leaves none. -/
theorem scripts_unloadOldest {e : Engine} (h : e.Settled) {n : Nat} (size : e.scripts.length = n) :
    (unloadOldest n e).scripts = [] := by
  induction n generalizing e with
  | zero => exact List.eq_nil_of_length_eq_zero size
  | succ n ih =>
    obtain ⟨s, rest, split⟩ := List.exists_cons_of_length_eq_add_one size
    obtain ⟨first, -, e', goes, settled, left⟩ := unload_oldest h split
    rw [split] at size
    rw [unloadOldest, first]
    dsimp only
    rw [goes]
    exact ih settled (left ▸ Nat.succ.inj size)

/-- When everything is unloaded no script is left. -/
theorem scripts_unloadAll {e : Engine} (h : e.Settled) : e.unloadAll.scripts = [] :=
  scripts_unloadOldest h rfl

/-- An engine that is open is emptied by deeds before it is closed. -/
theorem close_of_emptied {e : Engine} (h : e.Settled) (opened : e.closed = false) :
    ∃ emptied, e.Deeds emptied ∧ emptied.scripts = [] ∧ e.close = emptied.discarded := by
  have closing : e.Deeds e.closing := (Deeds.deed (.setQuiet e true)).then_deed (.scratch _ none)
  have dropped : e.Deeds ((e.scratch.map fun id => (e.closing.unload id).1).getD e.closing) := by
    cases e.scratch with
    | none => exact closing
    | some id => exact closing.trans (upheld_deeds.unload _ id)
  exact ⟨_, dropped.trans (upheld_deeds.unloadAll _), scripts_unloadAll (h.moves dropped.moves),
    close_eq opened⟩

private theorem Settled.history_close {e : Engine} (h : e.Settled) :
    ∃ turns, e.History turns e.close := by
  cases closed : e.closed with
  | true =>
    rw [close_of_closed closed]
    exact ⟨[], .refl⟩
  | false =>
    obtain ⟨emptied, deeds, empty, eq⟩ := close_of_emptied h closed
    obtain ⟨turns, earlier⟩ := h.history_deeds deeds
    rw [eq]
    exact ⟨turns ++ [], earlier.step (.close empty)⟩

private theorem Settled.history_perform {e : Engine} (h : e.Settled) (op : Operation) :
    ∃ turns, e.History turns (e.perform op) := by
  by_cases call : op.IsCall
  · cases op with
    | invoke script kind function arguments =>
      exact ⟨[], .single (.call e script kind function arguments)⟩
    | _ => exact call.elim
  · by_cases takes : op.Takes
    · cases op with
      | runTimers now => exact h.history_runTimers now
      | runRequests kind => exact h.history_runRequests kind
      | close => exact h.history_close
      | _ => exact takes.elim
    · exact h.history_deeds (e.deeds_perform call takes)

/-- Whatever comes about has a history. -/
theorem Settled.history {e e' : Engine} (h : e.Settled) (he : e.Evolves e') :
    ∃ turns, e.History turns e' := by
  induction he with
  | refl => exact ⟨[], .refl⟩
  | perform earlier op ih =>
    obtain ⟨turns, earlier⟩ := ih
    obtain ⟨more, last⟩ := (earlier.accounts h).settled.history_perform op
    exact ⟨turns ++ more, earlier.trans last⟩
  | outside _ files environment clock ih =>
    obtain ⟨turns, earlier⟩ := ih
    exact ⟨turns ++ [], earlier.step (.outside _ files environment clock)⟩

end LuaHost.Engine
