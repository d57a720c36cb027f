import Rulebook.Value.Basic

/-!
# Rules

A rule has a condition, statements that are run when it holds, and the names of actions that are
then invoked. It is read from a record with fields of fixed names.
-/

namespace Rulebook

/-- A rule. -/
structure Rule where
  name : Option String := none
  condition : String
  body : List String := []
  actions : List String := []
  deriving Repr, DecidableEq

/-- What is wrong with the value of a rule. -/
inductive RuleError where
  | notARecord
  | conditionKind
  | noCondition
  | nameKind
  | bodyItem
  | bodyKind
  | actionsItem
  | actionsKind
  deriving Repr, DecidableEq

/-- The wording of the error. -/
def RuleError.message : RuleError → String
  | notARecord => "rule must be an object"
  | conditionKind => "condition must be a string"
  | noCondition => "condition does not exist"
  | nameKind => "name must be a string"
  | bodyItem => "body statements must be strings"
  | bodyKind => "body must be a string or an array of strings"
  | actionsItem => "executionActions must contain action names"
  | actionsKind => "executionActions must be an array"

/-- The texts of a list of texts. -/
def textsOf? : List Value → Option (List String)
  | [] => some []
  | .text s :: rest => (textsOf? rest).map (s :: ·)
  | _ => none

namespace Rule

/-- How messages refer to the rule at a place of the list of rules. Line breaks in its name become
spaces. -/
def label (rule : Rule) (index : Nat) : String :=
  let place := "rule[" ++ toString index ++ "]"
  match rule.name with
  | some name => place ++ " " ++ name.map fun c => if c = '\n' ∨ c = '\r' then ' ' else c
  | none => place

/-- The condition, a text or a truth value. -/
def readCondition : Option Value → Except RuleError String
  | some (.text condition) => .ok condition
  | some (.bool condition) => .ok (if condition then "true" else "false")
  | some _ => .error .conditionKind
  | none => .error .noCondition

/-- The name, if there is one. -/
def readName : Option Value → Except RuleError (Option String)
  | some (.text name) => .ok (some name)
  | some _ => .error .nameKind
  | none => .ok none

/-- The statements: a single one or a list. -/
def readBody : Option Value → Except RuleError (List String)
  | some (.text statement) => .ok [statement]
  | some (.list statements) =>
    match textsOf? statements with
    | some body => .ok body
    | none => .error .bodyItem
  | some _ => .error .bodyKind
  | none => .ok []

/-- The names of the actions. -/
def readActions : Option Value → Except RuleError (List String)
  | some (.list names) =>
    match textsOf? names with
    | some actions => .ok actions
    | none => .error .actionsItem
  | some _ => .error .actionsKind
  | none => .ok []

/-- The rule that a value describes. A condition may be a truth value, and a body may be a single
statement. -/
def ofValue (value : Value) : Except RuleError Rule :=
  match value with
  | .record fields => do
    let condition ← readCondition (Fields.get? fields "condition")
    let name ← readName (Fields.get? fields "name")
    let body ← readBody (Fields.get? fields "body")
    let actions ← readActions (Fields.get? fields "executionActions")
    return { name, condition, body, actions }
  | _ => .error .notARecord

end Rule
end Rulebook
