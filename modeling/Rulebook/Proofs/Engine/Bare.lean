import Rulebook.Proofs.Engine.OnHost

/-!
# Engines without caches

`Operation` lists what can be done with an engine. A `BareEngine` keeps what it was told, namely the
configuration and its document, the registry, the source format and the mode, and nothing that can
be computed from these: whenever it needs the script it compiles the text again and builds it in a
fresh sandbox. It is what the caches of an `Engine` are measured against.

* `Operation.perform` and `Operation.performBare`: one operation on either kind of engine;
* `Engine.transcript` and `BareEngine.transcript`: the answers to a list of operations, each with
  the document after it, and the engine in the end.
-/

namespace Rulebook

/-- Something that can be done with an engine. -/
inductive Operation where
  | setConfiguration (configuration : Configuration)
  | configure (text : String)
  | setSource (source : Source)
  | register (name : String) (action : Action)
  | setMode (mode : SecurityMode)
  /-- Enabling, disabling and resetting the monitor, or any other change of it. -/
  | setMonitor (change : Monitor → Monitor)
  | printMonitor
  | scriptText
  | execute (parameters : Fields Value)
  | executeStrings (parameters : Fields String)
  | executeJson (input : String)

/-- An answer of an engine: a fault, an error, or a text if the operation has one. -/
abbrev Answer := Except Fault (Except EngineError (Option String))

/-- An operation that changes an engine and has no text to answer with. -/
def Session.silent (work : Session Unit) : Session (Except EngineError (Option String)) := do
  work
  return .ok none

/-- Does an operation on an engine. -/
def Operation.perform : Operation → Session (Except EngineError (Option String))
  | setConfiguration configuration => Session.silent (Engine.setConfiguration configuration)
  | configure text => do return (← Engine.configure text).map fun () => none
  | setSource source => Session.silent (Engine.setSource source)
  | register name action => Session.silent (Engine.register name action)
  | setMode mode => Session.silent (Engine.setMode mode)
  | setMonitor change => Session.silent (Engine.setMonitor change)
  | printMonitor => Session.silent do
    let engine ← get
    Session.leave (.print engine.monitor.report)
  | scriptText => do return (← Engine.scriptText).map some
  | execute parameters => do return (← Engine.execute parameters).map some
  | executeStrings parameters => do return (← Engine.executeStrings parameters).map some
  | executeJson input => do return (← Engine.executeJson input).map some

@[simp]
theorem mapError_ok {ε ε' α : Type} (f : ε → ε') (a : α) :
    (Except.ok a : Except ε α).mapError f = .ok a := rfl

@[simp]
theorem mapError_error {ε ε' α : Type} (f : ε → ε') (err : ε) :
    (Except.error err : Except ε α).mapError f = .error (f err) := rfl

/-- What an engine was told, and the document that came of it. -/
structure BareEngine where
  loaded : Option Loaded := none
  registry : Registry := {}
  source : Source := .json
  mode : SecurityMode := .secure

/-- An operation on a bare engine. -/
abbrev BareSession := ExceptT Fault (StateM BareEngine)

namespace BareEngine

/-- The text of the document. -/
def document (bare : BareEngine) : String := (bare.loaded.map (·.document)).getD "null"

/-- A sandbox of the mode with exactly the registered actions. -/
def sandbox (bare : BareEngine) : Script.Sandbox := ⟨bare.mode, bare.registry⟩

/-- The script text of what is loaded, compiled afresh. -/
def text (bare : BareEngine) : Except EngineError String :=
  match bare.loaded with
  | none => .error .notConfigured
  | some loaded =>
    (compileWithDocument loaded.configuration loaded.document bare.registry).mapError .compile

/-- The script of what is loaded, compiled and built afresh. -/
def script (bare : BareEngine) : Except EngineError Script := do
  (Script.build bare.sandbox (← bare.text)).mapError .script

/-- The bare engine with another document. -/
def withDocument (text : String) (bare : BareEngine) : BareEngine :=
  { bare with loaded := bare.loaded.map fun loaded => { loaded with document := text } }

/-- Loads a configuration and starts with its document. -/
def setConfiguration (configuration : Configuration) : BareSession Unit :=
  modify fun bare => { bare with loaded := some ⟨configuration, configuration.document⟩ }

/-- Loads the configuration that a text describes. -/
def configure (text : String) : BareSession (Except EngineError Unit) := do
  match ← ExceptT.mk (pure ((← get).source.configuration text)) with
  | .ok configuration =>
    setConfiguration configuration
    return .ok ()
  | .error reason => return .error (.source reason)

/-- Checks an input against the declarations of the configuration. -/
def check {α : Type} (run : List Parameter.Spec → Except Parameter.Rejection α) :
    BareSession (Except EngineError α) := do
  match (← get).loaded with
  | none => return .error .notConfigured
  | some loaded => return (run loaded.configuration.parameters).mapError .validation

/-- Compiles and builds the script of what is loaded. -/
def prepare : BareSession (Except EngineError Script) := do return (← get).script

variable (host : Host)

/-- Runs a script on the text of an input. -/
def runScript (script : Script) (input : String) : BareSession (Except EngineError String) := do
  return (← ExceptT.mk (pure (script.execute input host).2)).mapError .script

/-- Runs the rules on the text of an input. The result is the next document if `keeps` holds. -/
def run (input : String) (keeps : Bool) : BareSession (Except EngineError String) := do
  match ← prepare with
  | .error err => return .error err
  | .ok script =>
    match ← runScript host script input with
    | .error err => return .error err
    | .ok text =>
      if keeps then modify (withDocument text)
      return .ok text

/-- Runs the rules on parameters. -/
def runParameters (parameters : Fields Value) : BareSession (Except EngineError String) := do
  match (Value.record parameters).toJson with
  | some json => run host json.compact true
  | none => return .error .document

/-- Checks parameters and runs the rules on them. -/
def execute (parameters : Fields Value) : BareSession (Except EngineError String) := do
  match ← check (Parameter.validate parameters) with
  | .error err => return .error err
  | .ok () => runParameters host parameters

/-- Reads the texts of parameters, checks the values and runs the rules on them. -/
def executeStrings (parameters : Fields String) : BareSession (Except EngineError String) := do
  match ← check (Parameter.validateStrings parameters) with
  | .error err => return .error err
  | .ok values => runParameters host values

/-- Runs the rules on the text of a JSON payload. -/
def executeJson (input : String) : BareSession (Except EngineError String) := do
  match Value.readJson? input with
  | none => run host input false
  | some value =>
    match ← check (Parameter.validate (Engine.payload value)) with
    | .error err => return .error err
    | .ok () => run host input true

end BareEngine

/-- A fault breaks off what would follow. -/
theorem BareSession.bind_apply {α β : Type} (work : BareSession α) (next : α → BareSession β)
    (bare : BareEngine) :
    (work >>= next) bare = match work bare with
      | (.ok a, after) => next a after
      | (.error fault, after) => (.error fault, after) := by
  show (match work bare with | (result, after) => ExceptT.bindCont next result after) = _
  obtain ⟨_ | a, after⟩ := work bare <;> rfl

/-- An operation that changes a bare engine and has no text to answer with. -/
def BareSession.silent (work : BareSession Unit) :
    BareSession (Except EngineError (Option String)) := do
  work
  return .ok none

open BareEngine in
/-- Does an operation on a bare engine. -/
def Operation.performBare (host : Host) :
    Operation → BareSession (Except EngineError (Option String))
  | setConfiguration configuration => BareSession.silent (BareEngine.setConfiguration configuration)
  | configure text => do return (← BareEngine.configure text).map fun () => none
  | setSource source => BareSession.silent (modify fun bare => { bare with source })
  | register name action => BareSession.silent
    (modify fun bare => { bare with registry := (bare.registry.register name action).1 })
  | setMode mode => BareSession.silent (modify fun bare => { bare with mode })
  | setMonitor _ => BareSession.silent (pure ())
  | printMonitor => BareSession.silent (pure ())
  | scriptText => do return (← get).text.map some
  | execute parameters => do return (← BareEngine.execute host parameters).map some
  | executeStrings parameters => do return (← BareEngine.executeStrings host parameters).map some
  | executeJson input => do return (← BareEngine.executeJson host input).map some

/-- The answers of an engine to operations on a host that stands still, each with the document after
it, and the engine in the end. -/
def Engine.transcript (host : Host) (files : Fields String) :
    List Operation → Engine → List (Answer × String) × Engine
  | [], engine => ([], engine)
  | operation :: rest, engine =>
    let (answer, after) := operation.perform.onHost host files engine
    let (answers, final) := transcript host files rest after
    ((answer, after.document) :: answers, final)

/-- The answers of a bare engine to operations on a host, each with the document after it, and the
engine in the end. -/
def BareEngine.transcript (host : Host) :
    List Operation → BareEngine → List (Answer × String) × BareEngine
  | [], bare => ([], bare)
  | operation :: rest, bare =>
    let (answer, after) := operation.performBare host bare
    let (answers, final) := transcript host rest after
    ((answer, after.document) :: answers, final)

end Rulebook
