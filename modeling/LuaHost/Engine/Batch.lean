import LuaHost.Engine.Load

/-!
# Running batches

Requests may arrive while a script is running, when acting on them could unload that very
script. They wait in a list per kind until its timer is due, and run then as one batch.
-/

namespace LuaHost.Engine

/-- Go on with the file tree of an operation, and print an error if it failed. -/
def settleFiles (e : Engine) (result : FileTree.Result) (complaint : OsError → String) : Engine :=
  match result with
  | (files, .ok ()) => { e with files }
  | (files, .error error) => { e with files }.updateCore (·.complain (complaint error))

/-- Unload the script that was loaded from a file of this name, if there is one. -/
def unloadFile (e : Engine) (baseName : String) : Engine × Bool :=
  match e.core.registry.findByBaseName? baseName with
  | some id => ((e.unload id).1, true)
  | none => (e, false)

/-- Remove what is found at a path as the copy of a script; tells whether that was possible. -/
def removeCopy (e : Engine) (path : String) (quiet : Bool) : Engine × Bool :=
  match e.files.remove path with
  | (files, .error error) =>
    ({ e with files }.updateCore (·.complain
      ("failed to remove script: " ++ path ++ " (" ++ error.message ++ ")")), false)
  | (files, .ok ()) =>
    let e := { e with files }
    (if quiet then e else e.updateCore (·.say ("script removed: " ++ path)), true)

/-- Remove the copy of a script that is found first, as often as given; the result is the number
of copies found. -/
def removeCopies (name : String) (quiet : Bool) : Nat → Engine → Engine × Nat
  | 0, e => (e, 0)
  | n + 1, e =>
    let path := e.search name
    if Path.same path name then (e, 0)
    else
      let removal := e.removeCopy path quiet
      if removal.2 then
        let rest := removeCopies name quiet n removal.1
        (rest.1, rest.2 + 1)
      else (removal.1, 1)

/-- Remove the installed copies of a script, which are its autoload link and its file; the result
tells whether any was found. -/
def removeInstalled (e : Engine) (name : String) (quiet : Bool) : Engine × Bool :=
  let (e, found) := removeCopies name quiet 2 e
  (e, 0 < found)

/-- Unload the script of a file name and remove its installed copies; the result tells whether it
was loaded and whether any copy was found. -/
def retire (batch : Batch) (e : Engine) (name : String) : Engine × Bool × Bool :=
  let unloaded := e.unloadFile name
  let cleared := unloaded.1.removeInstalled name batch.quiet
  (cleared.1, unloaded.2, cleared.2)

/-- Make the autoload link of an installed script. -/
def linkInstalled (e : Engine) (name : String) : Engine :=
  e.settleFiles (e.dirs.linkAutoload e.files name) fun error =>
    "failed to autoload script " ++ name ++ " (" ++ error.message ++ ")"

/-- Link a script that was put in its place. It is loaded again if it was loaded before; a new one
is loaded when it is to be autoloaded. -/
def startInstalled (batch : Batch) (e : Engine) (base target : String)
    (wasLoaded existed : Bool) : Engine :=
  let e := if batch.autoload then e.linkInstalled base else e
  if (!existed && batch.autoload) || wasLoaded then (e.load target none).1 else e

/-- Put a file in the place of the installed script of its name. -/
def installFile (batch : Batch) (e : Engine) (source : String) : Engine :=
  match Path.fileName? source with
  | none => e.updateCore (·.complain ("invalid script path \"" ++ source ++ "\""))
  | some base =>
    let (e, wasLoaded, existed) := retire batch e base
    let target := Path.join e.dirs.installed base
    match e.files.move source target with
    | (files, .error error) =>
      { e with files }.updateCore (·.complain
        ("failed to move script " ++ source ++ " to " ++ target ++ " (" ++ error.message ++ ")"))
    | (files, .ok ()) => startInstalled batch { e with files } base target wasLoaded existed

/-- Install the files of a batch. -/
def install (e : Engine) (batch : Batch) : Engine :=
  match e.dirs.create e.files with
  | (files, .error error) =>
    { e with files }.updateCore (·.complain
      ("unable to create directory \"" ++ e.dirs.autoload ++ "\" (" ++ error.message ++ ")"))
  | (files, .ok ()) => batch.names.foldl (installFile batch) { e with files }

/-- Unload the script of a file name and remove its installed copies. -/
def removeFile (batch : Batch) (e : Engine) (name : String) : Engine :=
  let (e, _, found) := retire batch e name
  if found then e
  else e.updateCore (·.complain ("script \"" ++ name ++ "\" not found, nothing was removed"))

/-- Remove the scripts of a batch. -/
def remove (e : Engine) (batch : Batch) : Engine := batch.names.foldl (removeFile batch) e

/-- Make or remove the autoload link of a name, if a script of that name is installed. -/
def updateLink (batch : Batch) (e : Engine) (name : String) : Engine :=
  if e.files.exists? (Path.join e.dirs.installed name) then
    let result :=
      if batch.autoload then e.dirs.linkAutoload e.files name
      else e.dirs.unlinkAutoload e.files name
    e.settleFiles result fun error =>
      "failed to update autoload for script " ++ name ++ " (" ++ error.message ++ ")"
  else e

/-- Make or remove the autoload links of a batch. -/
def updateLinks (e : Engine) (batch : Batch) : Engine := batch.names.foldl (updateLink batch) e

/-- Run a batch of a kind. -/
def runBatch (e : Engine) (kind : RequestKind) (batch : Batch) : Engine :=
  match kind with
  | .install => e.install batch
  | .remove => e.remove batch
  | .autoload => e.updateLinks batch

/-- Take the waiting list of a kind. -/
def takeRequests (e : Engine) (kind : RequestKind) : String × Engine :=
  let (list, requests) := e.core.requests.take kind
  (list, e.updateCore fun c => { c with requests })

/-- Run what is waiting of a kind, in the quiet mode that the requests ask for. -/
def runRequests (e : Engine) (kind : RequestKind) : Engine :=
  let (list, e) := e.takeRequests kind
  if list.isEmpty then e
  else
    let batch := Batch.ofText list
    let e := e.updateCore (·.note (.ran kind batch))
    (e.withQuiet batch.quiet fun e => (e.runBatch kind batch, ())).1

/-- Run what is waiting of every kind whose timer is due; the result is the number of timers. -/
def runTimers (e : Engine) (now : Nat) : Engine × Nat :=
  let (ready, timers) := e.core.timers.takeReady now
  ((ready.map Timer.kind).foldl runRequests (e.updateCore fun c => { c with timers }), ready.length)

end LuaHost.Engine
