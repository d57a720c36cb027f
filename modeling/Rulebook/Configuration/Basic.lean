import Rulebook.Rule
import Rulebook.Parameter.Spec
import Rulebook.Value.Json

/-!
# Configurations

A configuration holds the text of the document that the rules start from, statements to run before
and after the rules, the rules, and the declarations of the parameters. It is read from a record
whose sections are looked at in a fixed order, so that the first error is the one reported.
-/

namespace Rulebook

/-- A configuration. -/
structure Configuration where
  /-- The JSON text of the document. -/
  document : String := "\x7b\x7d"
  before : List String := []
  rules : List Rule := []
  after : List String := []
  parameters : List Parameter.Spec := []

/-- What is wrong with the value of a configuration. -/
inductive ConfigurationError where
  | notARecord
  /-- A section is not a list. -/
  | list (field : String)
  /-- A statement is not a text. -/
  | statement (field : String) (index : Nat)
  | rule (index : Nat) (reason : RuleError)
  | parameter (index : Nat) (reason : Parameter.SpecError)
  /-- The document has a number that has no JSON form. -/
  | document
  deriving Repr, DecidableEq

/-- The wording of the error. -/
def ConfigurationError.message : ConfigurationError → String
  | notARecord => "Configuration must be an object"
  | list field => field ++ " must be an array"
  | statement field index => field ++ "[" ++ toString index ++ "] must be a string"
  | rule index reason => "rules[" ++ toString index ++ "]: " ++ reason.message
  | parameter index reason => "inputValidation[" ++ toString index ++ "]: " ++ reason.message
  | document => "document: number out of range"

namespace Configuration

/-- The canonical text of a value: its JSON form with the members of all objects in order. -/
def canonicalText (value : Value) : Option String :=
  value.toJson.map fun json => json.sorted.compact

/-- The items of a section. A missing or empty section has none. -/
def itemsOf (fields : Fields Value) (field : String) : Except ConfigurationError (List Value) :=
  match fields.get? field with
  | some (.list items) => .ok items
  | some .null => .ok []
  | none => .ok []
  | some _ => .error (.list field)

/-- The texts among the items of a section from the place `index` on, which all have to be texts. -/
def readStatements (field : String) (index : Nat) :
    List Value → Except ConfigurationError (List String)
  | [] => .ok []
  | .text statement :: rest => (readStatements field (index + 1) rest).map (statement :: ·)
  | _ => .error (.statement field index)

/-- The statements of a section. -/
def statements (fields : Fields Value) (field : String) :
    Except ConfigurationError (List String) := do
  readStatements field 0 (← itemsOf fields field)

/-- The rules that the items from the place `index` on describe. -/
def readRules (index : Nat) : List Value → Except ConfigurationError (List Rule)
  | [] => .ok []
  | item :: rest =>
    match Rule.ofValue item with
    | .ok rule => (readRules (index + 1) rest).map (rule :: ·)
    | .error reason => .error (.rule index reason)

/-- The declarations that the items from the place `index` on describe. -/
def readSpecs (index : Nat) :
    List Value → Except Fault (Except ConfigurationError (List Parameter.Spec))
  | [] => .ok (.ok [])
  | item :: rest => do
    match ← Parameter.Spec.ofValue item with
    | .ok spec => return (← readSpecs (index + 1) rest).map (spec :: ·)
    | .error reason => return .error (.parameter index reason)

/-- The document of a configuration: a missing one is the empty object. -/
def documentOf (fields : Fields Value) : Except ConfigurationError String :=
  match fields.get? "document" with
  | none => .ok "\x7b\x7d"
  | some .null => .ok "\x7b\x7d"
  | some value =>
    match canonicalText value with
    | some text => .ok text
    | none => .error .document

/-- The configuration without its declarations, and the values that describe them. -/
def readSections (fields : Fields Value) :
    Except ConfigurationError (Configuration × List Value) := do
  let document ← documentOf fields
  let before ← statements fields "preExecution"
  let after ← statements fields "postExecution"
  let rules ← readRules 0 (← itemsOf fields "rules")
  let specs ← itemsOf fields "inputValidation"
  return ({ document, before, rules, after }, specs)

/-- The configuration that a value describes. A declaration without members is a fault. -/
def ofValue (value : Value) : Except Fault (Except ConfigurationError Configuration) :=
  match value with
  | .record fields =>
    match readSections fields with
    | .ok (configuration, specs) => do
      match ← readSpecs 0 specs with
      | .ok parameters => return .ok { configuration with parameters }
      | .error err => return .error err
    | .error err => return .error err
  | _ => return .error .notARecord

end Configuration
end Rulebook
