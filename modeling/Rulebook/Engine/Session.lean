import Rulebook.Engine.Basic
import Rulebook.Procedure

/-!
# Using an engine

The operations of an engine. An operation may change the engine, look at the host and leave output;
it answers with a result or an error, and a fault in a script or a configuration breaks it off.
-/

namespace Rulebook

/-- An operation on an engine. -/
abbrev Session := ExceptT Fault (StateT Engine Procedure)

namespace Session

/-- The host as it is at the moment. -/
def host : Session Host := liftM (m := Procedure) Procedure.host

/-- Leaves output. -/
def leave (output : Output) : Session Unit := liftM (m := Procedure) (Procedure.leave output)

/-- A result, or the fault that breaks the operation off. -/
def ofResult {α : Type} (result : Except Fault α) : Session α := ExceptT.mk (pure result)

/-- Leaves a remark for those who look for details in the log. -/
def remark (text : String) : Session Unit :=
  leave (.log .debug "docrule_engine::rule_engine" text)

/-- Measures an operation under a label. A fault leaves the phase running. -/
def phase {α : Type} (label : String) (work : Session α) : Session α := do
  let before ← host
  modify fun engine => { engine with monitor := engine.monitor.start label before.time }
  let result ← work
  let after ← host
  let (monitor, output) := (← get).monitor.stop label after.time
  modify fun engine => { engine with monitor }
  leave output
  return result

end Session

namespace Engine

open Session

/-! ### Configurations, actions and modes -/

/-- Loads a configuration and starts with its document. -/
def setConfiguration (configuration : Configuration) : Session Unit := do
  remark ("Configuration set with " ++ toString configuration.rules.length ++ " rule(s) and " ++
    toString configuration.parameters.length ++ " parameter declaration(s)")
  modify fun engine => { engine with
    loaded := some ⟨configuration, configuration.document⟩, compiled := none }

/-- Loads the configuration that a text describes. An engine that fails to read it stays as it
is. -/
def configure (text : String) : Session (Except EngineError Unit) := do
  match ← ofResult ((← get).source.configuration text) with
  | .ok configuration =>
    setConfiguration configuration
    return .ok ()
  | .error reason => return .error (.source reason)

/-- Sets the format of configuration texts. -/
def setSource (source : Source) : Session Unit := modify fun engine => { engine with source }

/-- Registers an action for all scripts to come. -/
def register (name : String) (action : Action) : Session Unit := do
  let (registry, output) := (← get).registry.register name action
  leave output
  modify fun engine => { engine with
    registry, workbench := engine.workbench.clear, compiled := none }

/-- Sets the mode of all scripts to come. -/
def setMode (mode : SecurityMode) : Session Unit := do
  let (workbench, changed) := (← get).workbench.setMode mode
  if changed then
    remark ("Security mode changed to " ++ (if mode.isSecure then "Secure" else "Open"))
    modify fun engine => { engine with
      workbench, compiled := engine.compiled.map fun compiled => { compiled with script := none } }

/-- Changes the monitor. -/
def setMonitor (change : Monitor → Monitor) : Session Unit :=
  modify fun engine => { engine with monitor := change engine.monitor }

/-! ### Scripts -/

/-- The script text of what is loaded; it is compiled unless it is up to date. -/
def compiledText : Session (Except EngineError String) := do
  let engine ← get
  match engine.compiled, engine.loaded with
  | some compiled, _ => return .ok compiled.text
  | none, none => return .error .notConfigured
  | none, some loaded =>
    match compileWithDocument loaded.configuration loaded.document engine.registry with
    | .ok text =>
      modify fun engine => { engine with compiled := some { text } }
      return .ok text
    | .error reason => return .error (.compile reason)

/-- The script text of what is loaded. Compiling it is measured. -/
def scriptText : Session (Except EngineError String) := do
  if (← get).compiled.isSome then compiledText else phase Monitor.compilation compiledText

/-- Prepares the script of what is loaded. -/
def prepare : Session (Except EngineError Script) := do
  match ← compiledText with
  | .error err => return .error err
  | .ok text =>
    let engine ← get
    let (result, workbench, output) := engine.workbench.prepare text engine.registry
    leave output
    match result with
    | .ok script =>
      remark ("Script compiled:\n" ++ text)
      modify fun engine =>
        { engine with workbench, compiled := some { text, script := some script } }
      return .ok script
    | .error reason =>
      modify fun engine => { engine with workbench }
      return .error (.script reason)

/-- The script of what is loaded; it is prepared unless it is up to date, which is measured. -/
def script : Session (Except EngineError Script) := do
  match (← get).compiled.bind (·.script) with
  | some script => return .ok script
  | none => phase Monitor.compilation prepare

/-! ### Execution -/

/-- The verdict of a check of the input, as an operation has to answer. -/
def verdict {α : Type} (result : Except Parameter.Rejection α) :
    Session (Except EngineError α) := do
  match result with
  | .ok a => return .ok a
  | .error reason =>
    remark ("Input rejected: " ++ reason.message)
    return .error (.validation reason)

/-- Checks an input against the declarations of the configuration. -/
def check {α : Type} (run : List Parameter.Spec → Except Parameter.Rejection α) :
    Session (Except EngineError α) := do
  match (← get).loaded with
  | none => return .error .notConfigured
  | some loaded =>
    verdict (← phase Monitor.validation (return run loaded.configuration.parameters))

/-- Runs a script on the text of an input. -/
def runScript (script : Script) (input : String) : Session (Except EngineError String) := do
  let (output, result) := script.execute input (← host)
  leave output
  match ← ofResult result with
  | .ok text => return .ok text
  | .error reason => return .error (.script reason)

/-- Takes over the text that a script came to as the document. -/
def keep (text : String) : Session Unit := do
  if (← get).document ≠ text then
    remark "Document changed, compiled script invalidated"
    modify fun engine => { engine with
      loaded := engine.loaded.map fun loaded => { loaded with document := text }, compiled := none }

/-- Runs the rules on the text of an input. The result is the next document if `keeps` holds. -/
def run (input : String) (keeps : Bool) : Session (Except EngineError String) := do
  match ← script with
  | .error err => return .error err
  | .ok script =>
    match ← phase Monitor.execution (runScript script input) with
    | .error err => return .error err
    | .ok text =>
      if keeps then keep text
      return .ok text

/-- Runs the rules on parameters. -/
def runParameters (parameters : Fields Value) : Session (Except EngineError String) := do
  match (Value.record parameters).toJson with
  | some json => run json.compact true
  | none => return .error .document

/-- Checks parameters and runs the rules on them. -/
def execute (parameters : Fields Value) : Session (Except EngineError String) := do
  match ← check (Parameter.validate parameters) with
  | .error err => return .error err
  | .ok () => runParameters parameters

/-- Reads the texts of parameters as their declarations say, checks the values and runs the rules on
them. -/
def executeStrings (parameters : Fields String) : Session (Except EngineError String) := do
  match ← check (Parameter.validateStrings parameters) with
  | .error err => return .error err
  | .ok values => runParameters values

/-- The parameters that a JSON payload gives: the members of an object, else none. -/
def payload : Value → Fields Value
  | .record fields => fields
  | _ => []

/-- Runs the rules on the text of a JSON payload, whose members are checked as parameters. A text
that is not JSON is not checked, and what the rules make of it does not become the document. -/
def executeJson (input : String) : Session (Except EngineError String) := do
  match Value.readJson? input with
  | none =>
    remark "Input is not JSON, passing it through: the text does not follow the grammar"
    run input false
  | some value =>
    match ← check (Parameter.validate (payload value)) with
    | .error err => return .error err
    | .ok () => run input true

end Engine
end Rulebook
