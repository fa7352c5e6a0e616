import LuaHost.Proofs.Core.Silence
import LuaHost.Proofs.Engine.Reachable

/-!
# The scratch script

A source that asks for one registration and for nothing else cannot register anything else, whatever
the engine that loads it is like. The source of the scratch script is such a one, so that a load of
it comes to a script of its name or fails.
-/

namespace LuaHost.Engine

private theorem contexts_started (e : Engine) (filename : String) :
    (e.started filename).contexts = e.contexts ++ [(e.nextContext, Lua.Interpreter.fresh)] := by
  rw [← e.openLoad_snd filename]
  rfl

/-- The context of a load is fresh. -/
theorem heapOf_started {e : Engine} (h : e.Settled) (filename : String) :
    (e.started filename).heapOf e.nextContext = Lua.Interpreter.fresh := by
  have free : e.contexts.lookup e.nextContext = none := by
    refine List.lookup_eq_none_iff.mpr fun x hx => ?_
    have other : x.1 ≠ e.nextContext := fun same => h.fresh (List.mem_map.mpr ⟨x, hx, same⟩)
    simpa using Ne.symm other
  have found : (e.started filename).contexts.lookup e.nextContext =
      some Lua.Interpreter.fresh := by
    rw [contexts_started, List.lookup_append, free, List.lookup_cons_self]
    rfl
  rw [heapOf, found, Option.getD_some]

/-- The registration that a source asks for, if it asks for nothing else. -/
def soleRegistration? (filename : String) (source : ByteArray) (n : Nat) : Option Registration :=
  match compileSource filename source with
  | .error _ => none
  | .ok body => (sourceMachine filename body Lua.Interpreter.fresh).soleRegistration? n

variable {e : Engine} {filename : String} {n : Nat} {about : Registration}

/-- Such a source has no other registration accepted. -/
theorem accepted_sourceDialogue {source : ByteArray} (h : e.Settled)
    (sole : soleRegistration? filename source n = some about) :
    ∀ r ∈ Core.accepted (e.sourceDialogue filename source), r = about := by
  unfold soleRegistration? at sole
  unfold sourceDialogue
  split
  · exact List.forall_mem_nil _
  · next body compiled =>
    rw [compiled] at sole
    rw [dialogueIn, dialogueInWith, heapOf_started h]
    exact Core.accepted_of_soleRegistration? sole _ _

/-- A load of such a source comes to a script with that registration, or it fails. -/
theorem load_of_soleRegistration? {code : String} (h : e.Settled)
    (sole : soleRegistration? filename code.toUTF8 n = some about) {id : ScriptId}
    (loaded : (e.load filename (some code)).2 = .ok id) :
    ∃ s ∈ (e.load filename (some code)).1.scripts, s.id = id ∧ s.about = about := by
  have source : e.load filename (some code) = e.loadSource filename code.toUTF8 false := rfl
  rw [source] at loaded ⊢
  rcases loadSource_cases h filename code.toUTF8 false with
    ⟨r, -, accepted, -, result, kept⟩ | ⟨failure, lastId, -, result, -, -⟩
  · obtain rfl : r = about :=
      accepted_sourceDialogue h sole r (accepted ▸ List.mem_singleton_self r)
    rw [result] at loaded
    refine ⟨⟨e.core.registry.nextId, filename, r, e.nextContext, true⟩, ?_,
      Except.ok.inj loaded, rfl⟩
    have scripts : (e.loadSource filename code.toUTF8 false).1.scripts =
        (e.loaded filename r).scripts := congrArg Registry.scripts kept.core.registry
    rw [scripts, h.scripts_loaded]
    exact List.mem_append_right _ (List.mem_singleton_self _)
  · rw [result] at loaded
    cases loaded

set_option maxRecDepth 100000 in
/-- The registration that the source of the scratch script asks for. -/
def scratchAbout :
    { about : Registration //
      soleRegistration? scratchName scratchSource.toUTF8 100 = some about } :=
  ⟨⟨scratchName, "", "1.0", "GPL3", "Evaluation of source code", "", ""⟩, by decide +kernel⟩

/-- The script that a load of the scratch script comes to bears its name. The result is given as
a pair, since projections of it would be evaluated when it is put in other words. -/
theorem load_scratch (h : e.Settled) {e' : Engine} {id : ScriptId}
    (loaded : e.load scratchName (some scratchSource) = (e', .ok id)) :
    ∃ s ∈ e'.scripts, s.id = id ∧ s.name = scratchName := by
  have result : (e.load scratchName (some scratchSource)).2 = .ok id := congrArg Prod.snd loaded
  obtain ⟨s, mem, number, about⟩ := load_of_soleRegistration? h scratchAbout.property result
  rw [loaded] at mem
  exact ⟨s, mem, number, congrArg Registration.name about⟩

end LuaHost.Engine
