import LuaHost.Proofs.Engine.Reachable

/-!
# Signals about scripts

The engine tells the host of every script that a load brought in and of every script that was
unloaded. A load that fails is not announced, and a script that stays is not signed off. So whoever
counts the signals about a file knows how many scripts of that file are registered.
-/

namespace LuaHost.Engine

/-- How often the engine sent a signal about a file on its own account. -/
def announced (e : Engine) (signal : Signal) (filename : String) : Nat :=
  e.core.sent.count (signal.name, filename)

/-- The number of registered scripts that were loaded from a file. -/
def loadedFrom (e : Engine) (filename : String) : Nat :=
  e.scripts.countP (·.filename = filename)

/-- As many loads of a file were announced as unloads, and one more for every script of the file
that is registered. -/
def Balanced (e : Engine) (filename : String) : Prop :=
  e.announced .scriptLoaded filename = e.announced .scriptUnloaded filename + e.loadedFrom filename

namespace Balanced

variable {e e' : Engine} {filename : String}

private theorem congr (h : e.Balanced filename) (sent : e'.core.sent = e.core.sent)
    (scripts : e'.scripts = e.scripts) : e'.Balanced filename := by
  unfold Balanced announced loadedFrom at h ⊢
  rw [sent, scripts]
  exact h

/-- A script is added, and its load is announced. -/
theorem load (h : e.Balanced filename) {s : Script}
    (sent : e'.core.sent = e.core.sent ++ [(Signal.scriptLoaded.name, s.filename)])
    (scripts : e'.scripts = e.scripts ++ [s]) : e'.Balanced filename := by
  unfold Balanced announced loadedFrom at h ⊢
  rw [sent, scripts]
  by_cases same : s.filename = filename
  · simp [Signal.name, same] at h ⊢
    omega
  · simpa [Signal.name, same] using h

/-- A script is taken away, and its unload is announced. -/
theorem unload (h : e.Balanced filename) {s : Script}
    (sent : e'.core.sent = e.core.sent ++ [(Signal.scriptUnloaded.name, s.filename)])
    (scripts : e.scripts.Perm (s :: e'.scripts)) : e'.Balanced filename := by
  unfold Balanced announced loadedFrom at h ⊢
  rw [scripts.countP_eq] at h
  rw [sent]
  by_cases same : s.filename = filename
  · simp [Signal.name, same] at h ⊢
    omega
  · simpa [Signal.name, same] using h

end Balanced

/-! ### Moves -/

private theorem balanced_loadSource {e : Engine} (h : e.Settled) {filename : String}
    (balanced : e.Balanced filename) (file : String) (source : ByteArray) (inFile : Bool) :
    (e.loadSource file source inFile).1.Balanced filename := by
  rcases loadSource_cases h file source inFile with
    ⟨about, -, -, -, -, kept⟩ | ⟨failure, lastId, -, -, -, kept⟩
  · refine balanced.load (s := ⟨e.core.registry.nextId, file, about, e.nextContext, true⟩) ?_ ?_
    · exact kept.core.sent.trans (Core.sent_emit _ _)
    · rw [← h.scripts_loaded]
      exact congrArg Registry.scripts kept.core.registry
  · have untouched := untouched_spent kept
    exact balanced.congr untouched.sent untouched.scripts

private theorem balanced_unload {e : Engine} (h : e.Settled) {filename : String}
    (balanced : e.Balanced filename) (id : ScriptId) : (e.unload id).1.Balanced filename := by
  cases found : e.script? id with
  | none => simpa only [Engine.unload, found] using balanced
  | some s =>
    have kept := (kept_unload h.closed h.activeKnown found).2
    refine balanced.unload (s := s) ?_ ?_
    · exact kept.core.sent.trans (Core.sent_emit _ _)
    · have scripts : (e.unload id).1.scripts = (e.core.registry.remove s.id).scripts :=
        congrArg Registry.scripts kept.core.registry
      obtain rfl := Registry.id_of_get? found
      rw [scripts]
      exact h.wellFormed.perm_remove found

/-- Every move keeps the balance. -/
theorem Settled.balanced_move {e e' : Engine} (h : e.Settled) (m : e.Move e') {filename : String}
    (balanced : e.Balanced filename) : e'.Balanced filename := by
  cases m with
  | deed d =>
    cases d with
    | load file source inFile => exact balanced_loadSource h balanced file source inFile
    | unload id => exact balanced_unload h balanced id
    | evaluate id evaluation arguments =>
      have kept := kept_evaluated h id evaluation arguments
      exact balanced.congr kept.core.sent (congrArg Registry.scripts kept.core.registry)
    | print line => exact balanced.congr (Core.kept_print _ line).sent rfl
    | request | dump | files | setQuiet | setKeepEvaluation | setCheckLicense | scratch =>
      exact balanced.congr rfl rfl
  | takeRequests | note | takeTimers | discard => exact balanced.congr rfl rfl

private theorem Settled.balanced_moves {e e' : Engine} (h : e.Settled) (ms : e.Moves e')
    {filename : String} (balanced : e.Balanced filename) : e'.Balanced filename := by
  induction ms with
  | refl => exact balanced
  | tail ms m ih => exact (h.moves ms).balanced_move m ih

private theorem Settled.balanced_perform {e : Engine} (h : e.Settled) (op : Operation)
    {filename : String} (balanced : e.Balanced filename) : (e.perform op).Balanced filename := by
  obtain ⟨script, kind, function, arguments, rfl⟩ | ⟨-, moves⟩ := e.perform_cases op
  · have kept := kept_invoke h.closed h.activeKnown script kind function arguments
    exact balanced.congr kept.core.sent (congrArg Registry.scripts kept.core.registry)
  · exact h.balanced_moves moves balanced

private theorem Reachable.balanced {e : Engine} (h : e.Reachable) (filename : String) :
    e.Balanced filename := by
  obtain ⟨options, license, files, environment, budget, he⟩ := h
  induction he with
  | refl => rfl
  | perform earlier op ih =>
    exact (Reachable.of_new _ _ _ _ _ earlier).settled.balanced_perform op ih
  | outside _ _ _ _ ih => exact ih.congr rfl rfl

/-- Between two operations the engine has announced as many more loads of a file than unloads as
there are registered scripts that were loaded from it. -/
theorem signals_balance {e : Engine} (h : e.Reachable) (filename : String) :
    (e.announced .scriptLoaded filename : Int) - e.announced .scriptUnloaded filename =
      e.loadedFrom filename := by
  have balance := h.balanced filename
  unfold Balanced at balance
  omega

/-- An engine with two scripts of one file, of which the second has a signal sent as if a script
were loaded; a load of the file has failed, and the first script is unloaded. -/
def bereft : Engine :=
  let first := bare.perform (.load "a.lua" (some "weechat.register('a', '', '', '', '', '', '')"))
  let second := first.perform (.load "a.lua" (some
    "weechat.register('b', '', '', '', '', '', '')
weechat.signal_send('lua_script_loaded', 'a.lua')"))
  let failed := second.perform (.load "a.lua" (some
    "weechat.register('c', '', '', '', '', '', '') error('no')"))
  failed.perform (.unloadNamed "a")

private theorem reachable_bereft : bereft.Reachable := by
  unfold bereft
  apply Reachable.perform
  apply Reachable.perform
  apply Reachable.perform
  apply Reachable.perform
  exact reachable_bare

set_option maxRecDepth 100000 in
/-- The case of a signal that a script sent itself, a failed load and an unload. -/
theorem signals_balance_bereft :
    bereft.announced .scriptLoaded "a.lua" = 2 ∧ bereft.announced .scriptUnloaded "a.lua" = 1 ∧
      @Event.signal .script Signal.scriptLoaded.name "a.lua" ∈ bereft.core.events.toList ∧
      bereft.loadedFrom "a.lua" = 1 := by
  have counted : bereft.announced .scriptLoaded "a.lua" = 2 ∧
      bereft.announced .scriptUnloaded "a.lua" = 1 ∧
      @Event.signal .script Signal.scriptLoaded.name "a.lua" ∈ bereft.core.events.toList := by
    decide +kernel
  refine ⟨counted.1, counted.2.1, counted.2.2, ?_⟩
  have balance := signals_balance reachable_bereft "a.lua"
  omega

end LuaHost.Engine
