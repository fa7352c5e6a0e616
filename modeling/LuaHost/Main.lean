import LuaHost.Console.Disk

/-!
# The program

Reads the command line, the environment, the disk and the standard input, hands them to a
console, and prints and stores what comes of it.
-/

namespace LuaHost.Program

/-- The location of a path, with its dots resolved. -/
def locate (cwd : Location) (path : String) : Location :=
  let start := if Path.isAbsolute path then [] else cwd
  (Path.steps path).foldl (fun loc step =>
    if step = "." then loc else if step = ".." then loc.dropLast else loc ++ [step]) start

/-- The location of the working directory. -/
def workingDirectory : IO Location := do
  return Path.steps (← IO.currentDir).toString

/-- Add what the disk holds at one location to a tree. -/
def observeEntry (t : FileTree) (loc : Location) : IO FileTree := do
  let path := (← IO.currentDir) / FileTree.absolute loc
  if (t.get? loc).isSome then return t
  else if ← path.isDir then return t.put loc .directory
  else match ← (IO.FS.readBinFile path).toBaseIO with
    | .ok content => return t.put loc (.file content)
    | .error _ => return t

/-- Add what the disk holds at a location and above it to a tree. -/
def observeLocation (t : FileTree) (loc : Location) : IO FileTree :=
  (List.range loc.length).foldlM (fun t n => observeEntry t (loc.take (n + 1))) t

/-- Add what the disk holds in a directory to a tree. -/
def observeDirectory (t : FileTree) (loc : Location) : IO FileTree := do
  let path := (← IO.currentDir) / FileTree.absolute loc
  match ← path.readDir.toBaseIO with
  | .ok entries => entries.foldlM (fun t e => observeLocation t (loc ++ [e.fileName])) t
  | .error _ => return t

/-- What the disk holds under some paths and in some directories. -/
def observe (directories paths : List String) : IO FileTree := do
  let cwd ← workingDirectory
  let t ← paths.foldlM (fun t path => observeLocation t (locate cwd path)) (.empty cwd)
  directories.foldlM (fun t path => observeDirectory t (locate cwd path)) t

/-- Do on the disk what was done to a tree. -/
def apply (change : FileTree.Change) : IO Unit := do
  let root ← IO.currentDir
  match change with
  | .remove loc => IO.FS.removeFile (root / FileTree.absolute loc)
  | .makeDirectory loc => IO.FS.createDir (root / FileTree.absolute loc)
  | .write loc content => IO.FS.writeBinFile (root / FileTree.absolute loc) content
  | .link loc target content =>
    let path := root / FileTree.absolute loc
    let source := root / FileTree.absolute (locate loc.dropLast target)
    match ← (IO.FS.hardLink source path).toBaseIO with
    | .ok () => pure ()
    | .error _ => IO.FS.writeBinFile path content

/-- Do an operation of a console that can reach some paths, and print what comes of it. -/
def perform (c : Console) (paths : List String) (operation : Console → Console) : IO Console := do
  let files ← observe [c.engine.dirs.autoload] paths
  let c := operation { c with engine := { c.engine with files } }
  let ((output, errors), c) := c.takePrinted
  (← IO.getStdout).putStr output
  (← IO.getStderr).putStr errors
  (files.changes c.engine.files).forM apply
  return c

/-- Read the bytes of a line with its line feed; none are left when the input has ended. -/
partial def readLine (input : IO.FS.Stream) (line : ByteArray) : IO ByteArray := do
  let next ← input.read 1
  if next.isEmpty || next.data.contains 10 then return line ++ next
  else readLine input (line ++ next)

/-- Obey typed lines until the input ends, and run what is asked for in between. -/
partial def serve (input : IO.FS.Stream) (c : Console) : IO Console := do
  if !c.isOpen then return c
  else if 0 < c.engine.core.timers.size then
    IO.sleep requestDelay.toUInt32
    serve input (← perform c (c.reach []) (·.runTimers requestDelay))
  else
    let line ← readLine input .empty
    if line.isEmpty then return c
    else serve input (← perform c (c.reach (Console.namesIn line)) (·.readLine line))

/-- What the environment says about the user. -/
def readEnvironment : IO Environment := do
  return { home := (← IO.getEnv "HOME").getD "", dataHome := ← IO.getEnv "XDG_DATA_HOME",
           accountHome := "/" }

end LuaHost.Program

open LuaHost Program in
/-- Run the program; the result is its exit code. -/
def main (arguments : List String) : IO UInt32 := do
  match CommandLine.parse arguments with
  | .error e =>
    e.lines.forM fun line => IO.eprintln line
    return 1
  | .ok line =>
    let env ← readEnvironment
    let configuration := Console.configurationPaths env line
    let (options, _) := Console.configure env (← observe [] configuration) line
    let files ← observe [(ScriptDirs.mk options.home).autoload]
      (configuration ++ Console.startReach options env line)
    let start := Console.start env files Engine.defaultBudget line
    let c ← perform start (start.reach []) id
    let c ← serve (← IO.getStdin) c
    let _ ← perform c [] Console.close
    return 0
