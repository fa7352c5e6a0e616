import LuaHost.Proofs.Engine.Ambient
import LuaHost.Proofs.Engine.Reload
import LuaHost.Proofs.Files.Listing

/-!
# Loading the scripts of the autoload directory

The scripts to be loaded at startup are loaded one after the other in the order of their names. Each
load meets the scripts that the ones before it brought in, so a name that one of these has is taken;
whether a load succeeds or fails, the next file is loaded after it.
-/

namespace LuaHost.Engine

/-- Files are loaded one after the other. A load that succeeds brings in one script, which comes
from its file, has a name that was free and follows all others; one that fails leaves the scripts as
they are. -/
inductive LoadsInTurn : Engine → List String → List Script → Engine → Prop where
  | nothing (e : Engine) : LoadsInTurn e [] [] e
  | added {a b c : Engine} {path : String} {paths : List String} {s : Script} {ss : List Script}
      (succeeds : a.load path none = (b, .ok s.id)) (file : s.filename = path)
      (free : a.find? s.name = none) (behind : b.scripts = a.scripts ++ [s])
      (rest : LoadsInTurn b paths ss c) : LoadsInTurn a (path :: paths) (s :: ss) c
  | passed {a b c : Engine} {path : String} {paths : List String} {ss : List Script}
      {failure : Failure} (fails : a.load path none = (b, .error failure))
      (same : b.scripts = a.scripts) (rest : LoadsInTurn b paths ss c) :
      LoadsInTurn a (path :: paths) ss c

/-- The scripts that loads bring in follow those that were there. -/
theorem LoadsInTurn.scripts {a b : Engine} {paths : List String} {ss : List Script}
    (h : a.LoadsInTurn paths ss b) : b.scripts = a.scripts ++ ss := by
  induction h with
  | nothing => exact (List.append_nil _).symm
  | added _ _ _ behind _ ih => rw [ih, behind, List.append_assoc, List.singleton_append]
  | passed _ same _ ih => rw [ih, same]

/-- The name of a script that a load brought in was free before. -/
theorem find?_of_newcomer {a b : Engine} (h : a.Settled) (after : b.Settled) {s : Script}
    (behind : b.scripts = a.scripts ++ [s]) : a.find? s.name = none := by
  cases found : a.find? s.name with
  | none => rfl
  | some id =>
    obtain ⟨t, there, named, -⟩ := (h.wellFormed.indexed s.name id).mp found
    have names := after.wellFormed.named
    change (b.scripts.map Script.name).Nodup at names
    rw [behind, List.map_append, List.nodup_append] at names
    exact absurd named (names.2.2 _ (List.mem_map_of_mem there) _ (List.mem_singleton_self _))

/-- Loading files one after the other counts the scripts that come in. -/
theorem loadsInTurn_loadAll {e : Engine} (h : e.Settled) (paths : List String) :
    ∃ added, e.LoadsInTurn paths added (e.loadAll paths).1 ∧
      (e.loadAll paths).2 = added.length := by
  induction paths generalizing e with
  | nil => exact ⟨[], .nothing e, rfl⟩
  | cons path paths ih =>
    have settled : (e.load path none).1.Settled := h.perform (.load path none)
    obtain ⟨added, turns, count⟩ := ih settled
    rw [loadAll]
    dsimp only
    rcases load_cases h path none with ⟨about, result, kept⟩ | ⟨failure, result, untouched⟩
    · have behind := scripts_of_loaded h kept
      have free := find?_of_newcomer h settled behind
      rw [result, count]
      exact ⟨e.newcomer path about :: added,
        .added (Prod.ext rfl result) rfl free behind turns, rfl⟩
    · rw [result, count]
      exact ⟨added, .passed (Prod.ext rfl result) untouched.scripts turns, rfl⟩

/-- The scripts to be loaded at startup are loaded in a quiet mode of their own. Where the autoload
directory cannot be listed there are none. -/
theorem autoload_eq (e : Engine) :
    e.autoload = e.withQuiet true
      (·.loadAll ((e.dirs.startupNames e.files).map (Path.join e.dirs.autoload))) := by
  unfold autoload
  rw [ScriptDirs.autoloadScripts_eq]
  cases listed : e.files.list e.dirs.autoload with
  | error error =>
    have none : e.dirs.startupNames e.files = [] := by
      rw [ScriptDirs.startupNames, listed]
      rfl
    rw [none]
    rfl
  | ok names => rfl

private theorem loadsInTurn_autoload {e : Engine} (h : e.Settled) :
    ∃ added after,
      (e.setQuiet true).LoadsInTurn
        ((e.dirs.startupNames e.files).map (Path.join e.dirs.autoload)) added after ∧
      e.autoload = (after.setQuiet e.core.quiet, added.length) := by
  rw [autoload_eq]
  generalize (e.dirs.startupNames e.files).map (Path.join e.dirs.autoload) = paths
  have quiet : (e.setQuiet true).Settled := h.perform (.setQuiet true)
  obtain ⟨added, turns, count⟩ := loadsInTurn_loadAll quiet paths
  exact ⟨added, _, turns, withQuiet_eq_iff.mpr ⟨_, Prod.ext rfl count, rfl⟩⟩

/-- The scripts to be loaded at startup are exactly those of the autoload directory whose path leads
to a regular file and whose name is a text, is not hidden and has the extension of scripts. They are
loaded in the order of the bytes of their names. Each load that succeeds adds one script behind
those that are there, be they from before or added by the loads before it; one that fails, perhaps
because its name is taken, adds none and does not keep the others from being loaded. The result is
the number of scripts added, and the quiet mode is as it was. -/
theorem autoload_in_order {e : Engine} (h : e.Reachable) :
    let names := e.dirs.startupNames e.files
    (∀ name, name ∈ names ↔ e.dirs.AtStartup e.files name) ∧
      (names.Pairwise fun a b => (Text.encode a).data.toList ≤ (Text.encode b).data.toList) ∧
      (e.files.Distinct → names.Nodup) ∧
      ∃ added after,
        (e.setQuiet true).LoadsInTurn (names.map (Path.join e.dirs.autoload)) added after ∧
        e.autoload = (after.setQuiet e.core.quiet, added.length) ∧
        e.autoload.1.scripts = e.scripts ++ added ∧
        e.autoload.1.core.quiet = e.core.quiet := by
  obtain ⟨added, after, turns, whole⟩ := loadsInTurn_autoload h.settled
  refine ⟨fun name => e.dirs.mem_startupNames_iff e.files, e.dirs.pairwise_startupNames e.files,
    e.dirs.nodup_startupNames e.files, added, after, turns, whole, ?_, ?_⟩
  · rw [whole]
    exact turns.scripts
  · rw [whole]
    rfl

/-- A file with the source of a script that registers under a name. -/
def registering (name : String) : Entry :=
  .file (registers name).toUTF8

/-- A name that is no text, and ends as those of scripts do. -/
def garbled : String := FileName.ofBytes ⟨#[0xFF, 0x2E, 0x6C, 0x75, 0x61]⟩

/-- A new engine with a home, on a file tree with the directories `h`, `h/lua` and `h/lua/autoload`,
some more entries, and some in the autoload directory. -/
def onFiles (home : String) (others started : List (Location × Entry)) : Engine :=
  let root : Location := ["w"]
  let auto : Location := ["w", "h", "lua", "autoload"]
  let directories := [1, 2, 3, 4].map fun n => (auto.take n, Entry.directory)
  let below (dir : Location) (entries : List (Location × Entry)) : List (Location × Entry) :=
    entries.map fun x => (dir ++ x.1, x.2)
  new ⟨home, false, false, 0⟩ "GPL3"
    ⟨directories ++ below root others ++ below auto started, root⟩
    ⟨"/home/user", none, "/home/user"⟩ 1000

/-- An engine whose autoload directory holds a link to a script, a script that asks for the same
name, one that asks for another name, and entries that are no scripts to be loaded. -/
def awaiting : Engine :=
  onFiles "h" [(["h", "lua", "n.lua"], registering "n")]
    [(["notes.txt"], registering "t"), (["d.lua"], registering "d"), (["b.lua"], registering "n"),
      (["a.lua"], .link "../n.lua"), (["gone.lua"], .link "../gone.lua"),
      ([".h.lua"], registering "h"), ([garbled], registering "g")]

set_option maxRecDepth 100000 in
/-- The case of a link to a script, a name that is taken, and entries that are no scripts to be
loaded. -/
theorem autoload_in_order_awaiting :
    awaiting.dirs.startupNames awaiting.files = ["a.lua", "b.lua", "d.lua"] ∧
      awaiting.dirs.AtStartup awaiting.files "a.lua" ∧
      awaiting.autoload.2 = 2 ∧
      awaiting.autoload.1.scripts.map Script.filename =
        ["h/lua/autoload/a.lua", "h/lua/autoload/d.lua"] ∧
      awaiting.autoload.1.scripts.length = awaiting.autoload.2 ∧
      awaiting.autoload.1.core.quiet = false := by
  obtain ⟨members, -, -, added, after, -, whole, scripts, quiet⟩ :=
    autoload_in_order (e := awaiting) (.of_new _ _ _ _ _ .refl)
  have listed : awaiting.dirs.startupNames awaiting.files = ["a.lua", "b.lua", "d.lua"] := by
    decide +kernel
  obtain ⟨count, files⟩ : awaiting.autoload.2 = 2 ∧
      awaiting.autoload.1.scripts.map Script.filename =
        ["h/lua/autoload/a.lua", "h/lua/autoload/d.lua"] := by
    decide +kernel
  have first : "a.lua" ∈ awaiting.dirs.startupNames awaiting.files := by simp [listed]
  refine ⟨listed, (members _).mp first, count, files, ?_, quiet⟩
  rw [scripts, whole]
  rfl

/-- An engine whose autoload directory holds nothing but a script under a name that is no text. -/
def foreign : Engine := onFiles "h" [] [([garbled], registering "g")]

/-- An engine whose home is reached through as many links as can be followed, and whose autoload
directory holds nothing but a link to a script. -/
def remote : Engine :=
  onFiles ("/".intercalate (List.replicate FileTree.maxLinks "s" ++ ["h"]))
    [(["s"], .link "."), (["h", "lua", "n.lua"], registering "n")] [(["a.lua"], .link "../n.lua")]

set_option maxRecDepth 100000 in
/-- A name that is no text is passed over, and so is a script whose path leads through more links
than can be followed: they are not even tried. -/
theorem autoload_passes_over :
    (foreign.dirs.Eligible foreign.files garbled ∧ foreign.autoload.2 = 0 ∧
      foreign.autoload.1.core.events = #[]) ∧
    remote.dirs.Eligible remote.files "a.lua" ∧ remote.autoload.2 = 0 ∧
      remote.autoload.1.core.events = #[] := by
  have listed : foreign.files.resolve foreign.dirs.autoload true =
      .ok (.entry ["w", "h", "lua", "autoload"] .directory) := by decide +kernel
  have reached : remote.files.resolve remote.dirs.autoload true =
      .ok (.entry ["w", "h", "lua", "autoload"] .directory) := by decide +kernel
  refine ⟨⟨⟨⟨_, listed, ["w", "h", "lua", "autoload", garbled], _, rfl⟩, ?_, [0xFF], ?_⟩, ?_⟩,
    ⟨⟨_, reached, ["w", "h", "lua", "n.lua"], _, rfl⟩, ?_, [97], ?_⟩, ?_⟩ <;>
  decide +kernel

end LuaHost.Engine
