import Rulebook.Configuration.Source
import Rulebook.Monitor
import Rulebook.Parameter.Validation
import Rulebook.Workbench

/-!
# The rule engine

An engine holds a configuration and the document that its rules have made so far. It keeps the
script text of both and the script that was prepared from it, until one of the things that they
depend on changes. `EngineError` says why an operation has no result.
-/

namespace Rulebook

/-- Why an operation of an engine has no result. -/
inductive EngineError where
  | validation (reason : Parameter.Rejection)
  | compile (reason : CompileError)
  | script (reason : ScriptError)
  | source (reason : SourceError)
  /-- A value has no JSON form, or the document not the form that was asked for. -/
  | document
  | notConfigured

namespace EngineError

/-- The wordings of the errors behind an error, from the nearest one on. -/
def causes : EngineError → List String
  | validation reason => [reason.message]
  | compile reason => [reason.message]
  | script reason => reason.message :: reason.cause?.toList
  | source reason => reason.message :: reason.cause?.toList
  | document => ["the value does not have the expected form"]
  | notConfigured => []

/-- What kind of error it is. -/
def title : EngineError → String
  | validation _ => "Validation error"
  | compile _ => "Compile error"
  | script _ => "Script error"
  | source _ => "Converter error"
  | document => "Document error"
  | notConfigured => "No configuration has been set"

/-- The wording of an error. -/
def message (err : EngineError) : String :=
  match err.causes with
  | cause :: _ => err.title ++ ": " ++ cause
  | [] => err.title

end EngineError

/-- A configuration with the text of the document that its rules have made so far. -/
structure Loaded where
  configuration : Configuration
  document : String

/-- The script text for a configuration and a document, and the script once it was prepared. -/
structure Compiled where
  text : String
  script : Option Script := none

/-- A rule engine. -/
structure Engine where
  loaded : Option Loaded := none
  registry : Registry := {}
  /-- The format of configuration texts. -/
  source : Source := .json
  workbench : Workbench := {}
  monitor : Monitor := {}
  /-- The script of what is loaded, as long as it is up to date. -/
  compiled : Option Compiled := none

namespace Engine

/-- The configuration. -/
def configuration? (engine : Engine) : Option Configuration := engine.loaded.map (·.configuration)

/-- The text of the document; that of an engine without a configuration is `null`. -/
def document (engine : Engine) : String := (engine.loaded.map (·.document)).getD "null"

/-- Whether scripts run in the secure mode. -/
def isSecure (engine : Engine) : Bool := engine.workbench.mode.isSecure

/-- The document as a JSON value with its members in order. -/
def tree (engine : Engine) : Except EngineError Json :=
  (engine.source.tree engine.document).mapError .source

/-- The indented text of the document. -/
def indented (engine : Engine) : Except EngineError String :=
  (engine.source.indented engine.document).mapError .source

/-- The document as a value; a text that cannot be read as one counts as null. -/
def value (engine : Engine) : Value := (Verbatim.read? engine.document).getD .null

end Engine
end Rulebook
