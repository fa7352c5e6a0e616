import LuaHost.Engine.Load

/-!
# Evaluating code

Code typed by the user runs inside a scratch script that is loaded on demand. Unless it is to be
kept, the scratch script is unloaded again after each evaluation, so that nothing of one
evaluation is there in the next.
-/

namespace LuaHost.Engine

/-- The name and the file name of the scratch script. -/
def scratchName : String := "__eval__"

/-- The function of the scratch script that runs code. -/
def scratchFunction : String := "script_lua_eval"

/-- The source of the scratch script. -/
def scratchSource : String := "
function script_lua_eval(code)
    local chunk, err = load(code, \"=eval\", \"t\", _ENV)
    if not chunk then
        error(err, 0)
    end
    chunk()
    return weechat.WEECHAT_RC_OK
end

weechat.register(\"__eval__\", \"\", \"1.0\", \"GPL3\", \"Evaluation of source code\", \"\", \"\")
"

/-- The scratch script, which is loaded quietly when it is not there. -/
def ensureScratch (e : Engine) : Engine × Except Failure ScriptId :=
  match e.scratch with
  | some id => (e, .ok id)
  | none =>
    match e.withQuiet true (·.load scratchName (some scratchSource)) with
    | (e, .error cause) => (e, .error (.evaluation cause))
    | (e, .ok id) => ({ e with scratch := some id }, .ok id)

/-- Begin an evaluation. What was printed before is delivered first. -/
def openEvaluation (e : Engine) (evaluation : Evaluation) : Engine :=
  e.updateCore fun c =>
    let c := c.flush
    { c with output := { c.output with evaluation := some evaluation } }

/-- End an evaluation; the result is what was kept, if its output was not delivered. -/
def closeEvaluation (e : Engine) : Engine × Option String :=
  let e := e.updateCore Core.flush
  let (kept, output) :=
    if e.core.output.isCapturing then
      let (text, output) := e.core.output.takeBuffer
      (some text, output)
    else (none, e.core.output)
  (e.updateCore fun c => { c with output := { output with evaluation := none } }, kept)

/-- Unload the scratch script quietly, unless it is to be kept. -/
def dropScratch (e : Engine) (id : ScriptId) : Engine :=
  if e.core.options.keepEvaluation then e
  else { (e.withQuiet true (·.unload id)).1 with scratch := none }

/-- Run code and deliver what it prints to the destination of the evaluation; without one the
output is the result. -/
def evaluate (e : Engine) (evaluation : Evaluation) (code : String) :
    Engine × Except Failure (Option String) :=
  match e.ensureScratch with
  | (e, .error failure) => (e, .error failure)
  | (e, .ok id) =>
    let (e, _) := (e.openEvaluation evaluation).invoke id .ignored scratchFunction [.text code]
    let (e, kept) := e.closeEvaluation
    (e.dropScratch id, .ok kept)

/-- Run code; the result is what it prints, unless the scratch script cannot be loaded. -/
def evaluateToText (e : Engine) (code : String) : Engine × Option String :=
  match e.evaluate ⟨none, false, false⟩ code with
  | (e, .ok kept) => (e, kept)
  | (e, .error _) => (e, none)

/-- Unload everything, the scratch script first, and drop what was asked for. Closing a second
time does nothing. -/
def close (e : Engine) : Engine :=
  if e.closed then e
  else
    let e := e.setQuiet true
    let e := match e.scratch with
      | some id => ({ e with scratch := none }.unload id).1
      | none => e
    let e := e.unloadAll
    { e with
      core := { e.core with requests := .empty, timers := e.core.timers.clear, quiet := false }
      closed := true }

end LuaHost.Engine
