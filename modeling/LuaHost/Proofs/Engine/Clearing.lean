import LuaHost.Proofs.Engine.Mirror
import LuaHost.Proofs.Engine.Removal
import LuaHost.Proofs.Files.Clearing

/-!
# Removing a script without an error

Whatever goes wrong with a removal is printed as an error on the core buffer. When none is printed
every copy that was found is gone, which need not be every copy there is.
-/

namespace LuaHost

/-! ### Errors -/

/-- The event prints an error on the core buffer. -/
def Event.isError : Event → Bool
  | .print none line => errorMark.toList.isPrefixOf line.toList
  | _ => false

namespace Core

/-- The errors among what was sent to the host. -/
def errors (c : Core) : List Event := c.events.toList.filter Event.isError

private theorem errors_complain (c : Core) (message : String) :
    (c.complain message).errors =
      c.errors ++ [.print none (errorMark ++ engineName ++ ": " ++ message)] := by
  have marked :
      Event.isError (.print none (errorMark ++ engineName ++ ": " ++ message)) = true := by
    simp [Event.isError, String.toList_append]
  simp [errors, complain, print, emit, marked]

/-- A message that is no error leaves the errors as they are. -/
theorem errors_say (c : Core) (message : String) : (c.say message).errors = c.errors := by
  have plain : Event.isError (.print none (engineName ++ ": " ++ message)) = false := by
    simp [Event.isError, errorMark, engineName, String.toList_append, List.isPrefixOf]
  simp [errors, say, print, emit, plain]

end Core

namespace Engine

variable {e : Engine} {name : String} {quiet : Bool}

/-- What tells the same in two engines that are alike adds to what was told before. -/
theorem exists_errors {f : Engine → Engine}
    (each : ∀ {R : Core → Core → Prop}, Core.Simulation R → ∀ {e : Engine} {d : Core},
      R e.core d → Alike R (f e) (f (e.withCore d))) (e : Engine) :
    ∃ more, (f e).core.errors = e.core.errors ++ more := by
  have start : Core.Even e.core.events e.core.events e.core e.core := ⟨.refl rfl, rfl⟩
  obtain ⟨d, related, -⟩ := each (Core.simulation_even _ _) start
  obtain ⟨told, tells⟩ := related.told
  refine ⟨told.filter Event.isError, ?_⟩
  rw [Core.errors, tells.left]
  simp [Core.errors]

/-! ### Removing copies -/

/-- Removing what is found at a path takes it away without an error, or prints one. -/
theorem removeCopy_cases (e : Engine) (path : String) (quiet : Bool) :
    (∃ loc e', e.files.removed? path = some loc ∧ e.removeCopy path quiet = (e', true) ∧
      e'.files = e.files.erase loc ∧ e'.environment = e.environment ∧ e'.dirs = e.dirs ∧
      e'.core.errors = e.core.errors) ∨
    ∃ e' error, e.removeCopy path quiet = (e', false) ∧
      e'.core.errors = e.core.errors ++ [error] := by
  rcases e.files.remove_cases path with ⟨error, -, failed⟩ | ⟨loc, taken, removed⟩
  · right
    simp only [removeCopy, failed]
    exact ⟨_, _, rfl, Core.errors_complain _ _⟩
  · left
    simp only [removeCopy, removed]
    refine ⟨loc, _, taken, rfl, ?_⟩
    cases quiet with
    | true => exact ⟨rfl, rfl, rfl, rfl⟩
    | false => exact ⟨rfl, rfl, rfl, Core.errors_say _ _⟩

/-- Where the removal of copies prints no error none fails. -/
theorem clears_of_silent {n : Nat}
    (silent : (removeCopies name quiet n e).1.core.errors = e.core.errors) :
    e.dirs.Clears e.environment name n e.files := by
  induction n generalizing e with
  | zero => trivial
  | succ n ih =>
    intro other
    have other : ¬Path.same (e.search name) name = true := by
      rw [search, other]
      exact Bool.false_ne_true
    unfold removeCopies at silent
    dsimp only at silent
    rw [if_neg other] at silent
    rcases e.removeCopy_cases (e.search name) quiet with
      ⟨loc, e', taken, removed, files, environment, dirs, same⟩ | ⟨e', error, failed, printed⟩
    · rw [removed, if_pos rfl] at silent
      have rest := ih (silent.trans same.symm)
      rw [files, environment, dirs] at rest
      exact ⟨loc, taken, rest⟩
    · rw [failed, if_neg Bool.false_ne_true] at silent
      dsimp only at silent
      rw [printed] at silent
      simp at silent

/-- A removal that prints no error removes copies without one. -/
theorem clears_of_remove (h : e.Settled) {batch : Batch} (one : batch.names = [name])
    (silent : (e.remove batch).core.errors = e.core.errors) :
    e.dirs.Clears e.environment name 2 e.files := by
  obtain ⟨before, unloaded⟩ := exists_errors (f := fun e => (e.unloadFile name).1)
    (fun S _ _ related => (S.unloadFile related name).alike) e
  obtain ⟨more, removed⟩ := exists_errors (f := fun e => (removeCopies name batch.quiet 2 e).1)
    (fun S _ _ related => (S.removeCopies name batch.quiet 2 related).alike) (e.unloadFile name).1
  have whole : e.remove batch = removeFile batch e name := by
    rw [remove, one]
    rfl
  obtain ⟨after, ended⟩ : ∃ after, (e.remove batch).core.errors =
      (removeCopies name batch.quiet 2 (e.unloadFile name).1).1.core.errors ++ after := by
    rw [whole]
    unfold removeFile retire removeInstalled
    dsimp only
    split
    · exact ⟨[], (List.append_nil _).symm⟩
    · exact ⟨_, Core.errors_complain _ _⟩
  have nothing : before = [] ∧ more = [] ∧ after = [] := by
    rw [ended, removed, unloaded] at silent
    simpa using silent
  have disk := (unloadFile_cases h name).1
  have clears := clears_of_silent (removed.trans (by rw [nothing.2.1, List.append_nil]))
  rwa [disk.files, disk.environment, disk.dirs] at clears

/-- When a removal of one plain name prints no error, the link and the file of the name lead
nowhere. They are gone exactly if the link led anywhere before, if there was one, and the file did
without the link, if there was one. -/
theorem remove_clears_iff (h : e.Settled) {root : Location}
    (laid : e.dirs.LaidOut e.files root) (hname : Path.IsName name)
    (relative : name.toList.head? ≠ some '~') {batch : Batch} (one : batch.names = [name])
    (silent : (e.remove batch).core.errors = e.core.errors) :
    (e.remove batch).files.exists? (Path.join e.dirs.autoload name) = false ∧
      (e.remove batch).files.exists? (Path.join e.dirs.installed name) = false ∧
      ((e.remove batch).files.get? (root ++ ["lua", "autoload", name]) = none ∧
          (e.remove batch).files.get? (root ++ ["lua", name]) = none ↔
        (e.files.get? (root ++ ["lua", "autoload", name]) ≠ none →
            e.files.exists? (Path.join e.dirs.autoload name) = true) ∧
          (e.files.get? (root ++ ["lua", name]) ≠ none →
            (e.files.erase (root ++ ["lua", "autoload", name])).exists?
              (Path.join e.dirs.installed name) = true)) := by
  have clears := clears_of_remove h one silent
  have files : (e.remove batch).files = e.dirs.cleared e.environment name 2 e.files := by
    rw [remove, one]
    exact (sameDisk_removeFile h batch name).files
  have cleaned := ScriptDirs.cleaned_cleared laid hname relative clears
  rw [files]
  exact ⟨cleaned.link, cleaned.file, cleaned.gone_iff⟩

/-- The case of an installed script that is linked, which goes together with its link. -/
theorem remove_clears_iff_twins :
    (twins.remove ⟨false, false, ["a.lua"]⟩).core.errors = twins.core.errors ∧
      (twins.remove ⟨false, false, ["a.lua"]⟩).files.get? ["w", "h", "lua", "autoload", "a.lua"] =
        none ∧
      (twins.remove ⟨false, false, ["a.lua"]⟩).files.get? ["w", "h", "lua", "a.lua"] = none := by
  have settled : twins.Settled := reachable_bare.settled.congr rfl rfl rfl rfl rfl rfl
  obtain ⟨silent, link, file⟩ :
      (twins.remove ⟨false, false, ["a.lua"]⟩).core.errors = twins.core.errors ∧
        twins.files.exists? (Path.join twins.dirs.autoload "a.lua") = true ∧
        (twins.files.erase ["w", "h", "lua", "autoload", "a.lua"]).exists?
          (Path.join twins.dirs.installed "a.lua") = true := by
    decide +kernel
  have plain : Path.IsName "a.lua" := ⟨by decide, by decide, by decide, by decide⟩
  have cleared := remove_clears_iff settled laidOut_twins plain (by decide) rfl silent
  exact ⟨silent, cleared.2.2.mpr ⟨fun _ => link, fun _ => file⟩⟩

/-- An engine with a link to an installed script that is not there any more, and a file of that name
in its home. -/
def severed : Engine := { twins with files := twins.files.erase ["w", "h", "lua", "a.lua"] }

/-- A link that leads nowhere stays, while the file of its name in the home is removed and no error
is printed. -/
theorem remove_leaves_link :
    severed.dirs.LaidOut severed.files ["w", "h"] ∧
      (Path.IsName "a.lua" ∧ "a.lua".toList.head? ≠ some '~') ∧
      (severed.remove ⟨false, false, ["a.lua"]⟩).core.errors = severed.core.errors ∧
      (severed.remove ⟨false, false, ["a.lua"]⟩).files.get?
        ["w", "h", "lua", "autoload", "a.lua"] = some (.link "../a.lua") := by
  refine ⟨⟨?_, ?_, ?_⟩, ⟨⟨?_, ?_, ?_, ?_⟩, ?_⟩, ?_, ?_⟩ <;> decide +kernel

end Engine

end LuaHost
