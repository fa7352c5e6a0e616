import LuaHost.Proofs.Engine.History

/-!
# Reloading a script

A reload unloads a script by its name and loads the file it came from. What the first half leaves
behind does not depend on the second: the old script is gone for good, whatever the new source
does, and the name it registers under may be another one.
-/

namespace LuaHost.Engine

variable {e : Engine}

/-! ### The outcome of a load -/

/-- A load brings one script in, or it leaves everything untouched. -/
theorem load_cases (h : e.Settled) (filename : String) (code : Option String) :
    (∃ about, (e.load filename code).2 = .ok e.core.registry.nextId ∧
      (e.loaded filename about).Kept (e.load filename code).1) ∨
    (∃ failure, (e.load filename code).2 = .error failure ∧
      e.Untouched (e.load filename code).1) := by
  unfold load
  cases e.sourceOf filename code with
  | error error => exact .inr ⟨_, rfl, untouched_of_kept (e.kept_complain _)⟩
  | ok source =>
    rcases loadSource_cases h filename source code.isNone with
      ⟨about, -, -, -, result, kept⟩ | ⟨failure, lastId, -, result, -, kept⟩
    · exact .inl ⟨about, result, kept⟩
    · exact .inr ⟨failure, result, untouched_spent kept⟩

/-! ### Unloading first -/

/-- The name of a registered script leads to it. -/
theorem bind_find?_script? (h : e.Settled) {s : Script} (registered : s ∈ e.scripts) :
    (e.find? s.name).bind e.script? = some s := by
  have named : e.find? s.name = some s.id :=
    (h.wellFormed.indexed s.name s.id).mpr ⟨s, registered, rfl, rfl⟩
  rw [named]
  exact (h.wellFormed.get?_eq_some_iff s.id s).mpr ⟨registered, rfl⟩

/-- Unloading a registered script by its name goes through, and a reload goes on from there. -/
theorem reload_eq (h : e.Settled) {s : Script} (registered : s ∈ e.scripts) :
    (e.unloaded s).Kept (e.perform (.unloadNamed s.name)) ∧
      e.reload s.name = (e.perform (.unloadNamed s.name)).load s.filename none := by
  have found := bind_find?_script? h registered
  have numbered : e.script? s.id = some s :=
    (h.wellFormed.get?_eq_some_iff s.id s).mpr ⟨registered, rfl⟩
  obtain ⟨result, kept⟩ := kept_unload h.closed h.activeKnown numbered
  have whole : e.unload s.id = ((e.unload s.id).1, .ok ()) := Prod.ext rfl result
  have after : e.perform (.unloadNamed s.name) = (e.unload s.id).1.updateCore
      (·.inform ("script \"" ++ s.name ++ "\" unloaded")) := by
    rw [perform, unloadNamed, unloadThen, found]
    dsimp only
    rw [whole]
  rw [after]
  constructor
  · exact kept.trans (kept_inform _ _)
  · rw [reload, unloadThen, found]
    dsimp only
    rw [whole]

/-- What is left when a script was unloaded: the other scripts in their order, the numbers that were
next before, and the signal. -/
theorem unloaded_leaves (h : e.Settled) {s : Script} (registered : s ∈ e.scripts) {e' : Engine}
    (kept : (e.unloaded s).Kept e') :
    (∃ before after, e.scripts = before ++ s :: after ∧ e'.scripts = before ++ after) ∧
      e'.core.registry.nextId = e.core.registry.nextId ∧ e'.nextContext = e.nextContext ∧
      e'.core.sent = e.core.sent ++ [(Signal.scriptUnloaded.name, s.filename)] := by
  have numbered : e.script? s.id = some s :=
    (h.wellFormed.get?_eq_some_iff s.id s).mpr ⟨registered, rfl⟩
  have registry : e'.core.registry = e.core.registry.remove s.id := kept.core.registry
  refine ⟨?_, ?_, ?_, kept.core.sent.trans (Core.sent_emit _ _)⟩
  · rw [scripts, scripts, registry]
    exact h.wellFormed.split_remove numbered
  · rw [Registry.nextId, registry, Registry.lastId_remove]
    rfl
  · rw [nextContext, kept.core.created]
    rfl

/-! ### Reloading -/

/-- A reload takes one script away and leaves the others in their order. If it succeeds, a script of
the same file follows them, under a number and in a context that come after all that were ever used.
If it fails, nothing is left of it but the signal about the unload. -/
theorem reload_replaces (h : e.Reachable) {s : Script} (registered : s ∈ e.scripts) :
    ∃ before after, e.scripts = before ++ s :: after ∧
      (∀ id, (e.reload s.name).2 = .ok id → ∃ about context,
        (e.reload s.name).1.scripts =
            before ++ after ++ [⟨id, s.filename, about, context, true⟩] ∧
          e.core.registry.lastId < id.number ∧ e.core.created < context.number ∧
          (∀ (e₀ : Engine) (t : Script), e₀.Reachable → e₀.Evolves e → t ∈ e₀.scripts →
            t.id.number < id.number ∧ t.context.number < context.number) ∧
          (e.reload s.name).1.core.sent = e.core.sent ++
            [(Signal.scriptUnloaded.name, s.filename), (Signal.scriptLoaded.name, s.filename)]) ∧
      (∀ failure, (e.reload s.name).2 = .error failure →
        (e.reload s.name).1.scripts = before ++ after ∧
          (e.reload s.name).1.core.live = (e.reload s.name).1.scripts.length ∧
          (e.reload s.name).1.core.sent =
            e.core.sent ++ [(Signal.scriptUnloaded.name, s.filename)]) := by
  obtain ⟨kept, whole⟩ := reload_eq h.settled registered
  have settled := (h.perform (.unloadNamed s.name)).settled
  rw [whole]
  -- The unload is done; what follows is a load like any other, into a settled engine.
  generalize e.perform (.unloadNamed s.name) = e₁ at kept settled ⊢
  obtain ⟨⟨before, after, split, left⟩, number, context, signed⟩ :=
    unloaded_leaves h.settled registered kept
  refine ⟨before, after, split, ?_, ?_⟩
  · intro id succeeded
    rcases load_cases settled s.filename none with
      ⟨about, result, loaded⟩ | ⟨failure, result, -⟩
    · obtain rfl := Except.ok.inj (result.symm.trans succeeded)
      have announced := loaded.core.sent.trans (Core.sent_emit _ _)
      refine ⟨about, e₁.nextContext, ?_, ?_, ?_, ?_, ?_⟩
      · rw [scripts_of_loaded settled loaded, left]
        rfl
      · rw [number]
        exact Nat.lt_succ_self _
      · rw [context]
        exact Nat.lt_succ_self _
      · intro e₀ t h₀ earlier there
        rw [number, context]
        exact h₀.unused earlier there
      · rw [announced]
        exact (congrArg (· ++ _) signed).trans (List.append_assoc _ _ _)
    · cases result.symm.trans succeeded
  · intro failure failed
    rcases load_cases settled s.filename none with ⟨about, result, -⟩ | ⟨_, -, untouched⟩
    · cases result.symm.trans failed
    · refine ⟨untouched.scripts.trans left, ?_, untouched.sent.trans signed⟩
      have balance := settled.live
      rw [untouched.live, untouched.scripts, Core.live]
      omega

/-- An engine with a script whose file can be read again, and one whose file is not there. -/
def shelved : Engine :=
  let tree := (FileTree.empty ["w"]).put ["w", "a.lua"]
    (.file "weechat.register('a', '', '', '', '', '', '')".toUTF8)
  let first := (new bare.core.options "GPL3" tree bare.environment 1000).perform
    (.load "a.lua" none)
  first.perform (.load "b.lua" (some
    "weechat.register('b', '', '', '', '', 'bye', '')
function bye() weechat.register('c', '', '', '', '', '', '') error('no') end"))

private theorem reachable_shelved : shelved.Reachable := by
  unfold shelved
  apply Reachable.perform
  apply Reachable.perform
  exact .of_new _ _ _ _ _ .refl

/-- The first script of that engine. -/
def onShelf : Script := ⟨⟨1⟩, "a.lua", ⟨"a", "", "", "", "", "", ""⟩, ⟨1⟩, true⟩

/-- The second script of that engine. -/
def borrowed : Script := ⟨⟨2⟩, "b.lua", ⟨"b", "", "", "", "", "bye", ""⟩, ⟨2⟩, true⟩

set_option maxRecDepth 100000 in
/-- The cases of a script that is loaded again, and of one whose file is gone. -/
theorem reload_replaces_shelved :
    onShelf ∈ shelved.scripts ∧ (shelved.reload onShelf.name).2 = .ok ⟨3⟩ ∧
      (∃ before after about context, shelved.scripts = before ++ onShelf :: after ∧
        (shelved.reload onShelf.name).1.scripts =
          before ++ after ++ [⟨⟨3⟩, "a.lua", about, context, true⟩]) ∧
      borrowed ∈ shelved.scripts ∧
      (shelved.reload borrowed.name).2 = .error (.file "b.lua" .notFound) ∧
      (shelved.reload borrowed.name).1.core.live =
        (shelved.reload borrowed.name).1.scripts.length := by
  obtain ⟨first, succeeds, second, fails⟩ :
      onShelf ∈ shelved.scripts ∧ (shelved.reload onShelf.name).2 = .ok ⟨3⟩ ∧
        borrowed ∈ shelved.scripts ∧
        (shelved.reload borrowed.name).2 = .error (.file "b.lua" .notFound) := by
    decide +kernel
  obtain ⟨before, after, split, replaced, -⟩ := reload_replaces reachable_shelved first
  obtain ⟨about, context, scripts, -⟩ := replaced _ succeeds
  obtain ⟨_, _, -, -, left⟩ := reload_replaces reachable_shelved second
  exact ⟨first, succeeds, ⟨before, after, about, context, split, scripts⟩, second, fails,
    (left _ fails).2.1⟩

end LuaHost.Engine
