import Rulebook.Configuration.Basic
import Rulebook.Json.Section
import Rulebook.Value.Verbatim
import Rulebook.Yaml.Meaning

/-!
# Sources of configurations

A source format says how a text is read as a value and, if the format can tell, what the text of its
document section is. The document section is taken over as it is written, everything else goes
through the value.
-/

namespace Rulebook

/-- Why a text could not be converted. -/
inductive SourceError where
  | json
  | yaml
  | document
  | configuration (reason : ConfigurationError)
  deriving Repr, DecidableEq

/-- The wording of the error. -/
def SourceError.message : SourceError → String
  | json => "Invalid JSON: the text does not follow the grammar"
  | yaml => "Invalid YAML: the text does not follow the grammar"
  | document => "Invalid document: the text does not follow the grammar"
  | configuration reason => "Invalid configuration: " ++ reason.message

/-- The error that is behind the error, in words. -/
def SourceError.cause? : SourceError → Option String
  | json => none
  | yaml => some "the text does not follow the grammar"
  | document => some "the text does not follow the grammar"
  | configuration reason => some reason.message

/-- A format of configuration texts. -/
structure Source where
  /-- The value of a text. -/
  value : String → Except SourceError Value
  /-- The text of the document section, if there is one. -/
  documentText : String → Except SourceError (Option String) := fun _ => .ok none

namespace Source

/-- JSON texts. Strings are taken verbatim, except in the document section. -/
def json : Source where
  value text :=
    match Verbatim.read? text with
    | some value => .ok value
    | none => .error .json
  documentText text :=
    match Json.memberText "document" text with
    | some found => .ok found
    | none => .error .document

/-- The text of the document section of a YAML node. -/
def yamlDocument (node : Yaml.Node) : Except SourceError (Option String) :=
  match Yaml.Tree.ofNode? node with
  | none => .error .yaml
  | some tree =>
    match tree.member? "document" with
    | none => .ok none
    | some (.scalar .null) => .ok none
    | some tree =>
      match tree.toJson with
      | some json => .ok (some json.compact)
      | none => .error .document

/-- YAML texts. The document section becomes JSON with the members in the order in which they are
written. -/
def yaml : Source where
  value text :=
    match (Yaml.read? text).bind Yaml.Node.toValue with
    | some value => .ok value
    | none => .error .yaml
  documentText text :=
    match Yaml.read? text with
    | some node => yamlDocument node
    | none => .error .yaml

/-- The configuration that a text describes. -/
def configuration (source : Source) (text : String) :
    Except Fault (Except SourceError Configuration) :=
  match source.value text with
  | .error err => return .error err
  | .ok value => do
    match ← Configuration.ofValue value with
    | .error reason => return .error (.configuration reason)
    | .ok configuration =>
      match source.documentText text with
      | .error err => return .error err
      | .ok (some document) => return .ok { configuration with document }
      | .ok none => return .ok configuration

/-- The JSON value of the text of a document, with its members in order. Documents are JSON in every
format. -/
def tree (_source : Source) (text : String) : Except SourceError Json :=
  match Json.read? text with
  | some json => .ok json.sorted
  | none => .error .document

/-- The indented text of a document. -/
def indented (source : Source) (text : String) : Except SourceError String :=
  (source.tree text).map Json.indented

end Source
end Rulebook
