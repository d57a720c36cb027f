import Rulebook.Parameter.Spec
import Rulebook.Text.Quoted
import Rulebook.Json.Printer

/-!
# Violations

A violation says which parameter breaks which of its constraints. A rejection is a list of
violations that is not empty.
-/

namespace Rulebook.Parameter

/-- A constraint that a declaration can put on its parameter. -/
inductive Constraint where
  | required
  | kind (kind : Kind)
  | min (limit : Float)
  | max (limit : Float)
  | minLength (limit : Nat)
  | maxLength (limit : Nat)
  | pattern (text : String)
  | allowed

/-- A broken constraint. -/
structure Violation where
  parameter : String
  constraint : Constraint
  /-- The text of the parameter, when it could not be read as a value of its kind. -/
  raw : Option String := none

namespace Violation

/-- What the parameter must be, in words. -/
def demand (violation : Violation) : String :=
  match violation.constraint with
  | .required => "is required"
  | .kind kind =>
    let demand := "must be of type " ++ kind.name
    match violation.raw with
    | some raw => demand ++ ", got " ++ Text.quoted raw
    | none => demand
  | .min limit => "must be greater than or equal to " ++ Layout.plain.render limit
  | .max limit => "must be less than or equal to " ++ Layout.plain.render limit
  | .minLength limit => "must have a length of at least " ++ toString limit
  | .maxLength limit => "must have a length of at most " ++ toString limit
  | .pattern text => "must match pattern " ++ text
  | .allowed => "is not one of the allowed values"

/-- The wording of the violation. -/
def message (violation : Violation) : String := violation.parameter ++ " " ++ violation.demand

end Violation

/-- Why an input is refused: the constraints that it breaks. -/
structure Rejection where
  violations : List Violation

namespace Rejection

/-- The wording of the rejection. -/
def message (rejection : Rejection) : String :=
  "Invalid input: " ++ Json.joinWith "; " (rejection.violations.map Violation.message)

/-- The names of the parameters that break a constraint, in the order in which they first occur. -/
def parameters (rejection : Rejection) : List String :=
  rejection.violations.foldl (fun names violation =>
    if names.contains violation.parameter then names else names ++ [violation.parameter]) []

end Rejection
end Rulebook.Parameter
