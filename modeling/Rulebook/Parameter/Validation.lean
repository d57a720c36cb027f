import Rulebook.Parameter.Violation
import Rulebook.Pattern.Search

/-!
# Validation

Parameters are checked against their declarations in one pass that reports every broken constraint,
in the order of the declarations. Parameters that arrive as texts are first read as values of their
declared kinds.
-/

namespace Rulebook.Parameter

namespace Spec

/-- The violation of a constraint of the declaration. -/
def violation (spec : Spec) (constraint : Constraint) : Violation := ⟨spec.name, constraint, none⟩

/-- The broken limits of a number. -/
def rangeViolations (spec : Spec) : Value → List Violation
  | .number n =>
    let x := n.toFloat
    (match spec.min with
      | some min => if x < min then [spec.violation (.min min)] else []
      | none => []) ++
    (match spec.max with
      | some max => if x > max then [spec.violation (.max max)] else []
      | none => [])
  | _ => []

/-- The length of a value that has one: characters of a text, items of a list. -/
def length? : Value → Option Nat
  | .text s => some s.length
  | .list items => some items.length
  | _ => none

/-- The broken limits of the length of a value. -/
def lengthViolations (spec : Spec) (value : Value) : List Violation :=
  match length? value with
  | some length =>
    (match spec.minLength with
      | some least => if length < least then [spec.violation (.minLength least)] else []
      | none => []) ++
    (match spec.maxLength with
      | some most => if length > most then [spec.violation (.maxLength most)] else []
      | none => [])
  | none => []

/-- Whether the pattern with the given text is found in `s`. A text that is no pattern is never
found. -/
def matchesPattern (pattern s : String) : Bool :=
  match Pattern.read? pattern with
  | some pattern => pattern.foundIn s
  | none => false

/-- The broken pattern of a text. -/
def patternViolations (spec : Spec) : Value → List Violation
  | .text s =>
    match spec.pattern with
    | some pattern => if matchesPattern pattern s then [] else [spec.violation (.pattern pattern)]
    | none => []
  | _ => []

/-- The violation of a value that is not in the list of allowed ones, unless that list is empty. -/
def allowedViolations (spec : Spec) (value : Value) : List Violation :=
  if spec.allowed.isEmpty || spec.allowed.any (·.same value) then []
  else [spec.violation .allowed]

/-- The constraints that a parameter breaks. A missing parameter only has to be optional, and one of
the wrong kind breaks nothing else. -/
def violations (spec : Spec) (value : Option Value) : List Violation :=
  match value.filter fun value => !value.isMissing with
  | none => if spec.required then [spec.violation .required] else []
  | some value =>
    if spec.kind.accepts value then
      spec.rangeViolations value ++ spec.lengthViolations value ++ spec.patternViolations value ++
        spec.allowedViolations value
    else [spec.violation (.kind spec.kind)]

end Spec

/-- The result of a check that found `violations`. -/
def verdict {α : Type} (violations : List Violation) (value : α) : Except Rejection α :=
  if violations.isEmpty then .ok value else .error ⟨violations⟩

/-- Checks parameters against their declarations. -/
def validate (parameters : Fields Value) (specs : List Spec) : Except Rejection Unit :=
  verdict (specs.flatMap fun spec => spec.violations (parameters.get? spec.name)) ()

/-- The place of the first declaration of a name. -/
def declaredAt (specs : List Spec) (name : String) : Nat := specs.findIdx (·.name == name)

/-- The violations in the order of the declarations of their parameters; those of one parameter stay
in the order in which they are. -/
def inDeclarationOrder (specs : List Spec) (violations : List Violation) : List Violation :=
  violations.mergeSort fun a b =>
    declaredAt specs a.parameter ≤ declaredAt specs b.parameter

/-- The value that the text of a parameter stands for, or the violation of its kind. A parameter
that is not declared is a text. -/
def coerceOne (specs : List Spec) (name raw : String) : Except Violation Value :=
  match specs.find? (·.name == name) with
  | some spec =>
    match spec.kind.coerce raw with
    | some value => .ok value
    | none => .error ⟨name, .kind spec.kind, some raw⟩
  | none => .ok (.text raw)

/-- The parameters that could be read, and the violations of the others. -/
def coerceAll (parameters : Fields String) (specs : List Spec) : Fields Value × List Violation :=
  (parameters.filterMap fun (name, raw) =>
      ((coerceOne specs name raw).toOption).map fun value => (name, value),
    inDeclarationOrder specs <| parameters.filterMap fun (name, raw) =>
      match coerceOne specs name raw with
      | .ok _ => none
      | .error violation => some violation)

/-- Reads the texts of parameters as values of their declared kinds. -/
def coerce (parameters : Fields String) (specs : List Spec) : Except Rejection (Fields Value) :=
  let (values, violations) := coerceAll parameters specs
  verdict violations values

/-- Reads the texts of parameters and checks the values. A parameter that could not be read is not
checked any further. -/
def validateStrings (parameters : Fields String) (specs : List Spec) :
    Except Rejection (Fields Value) :=
  let (values, unread) := coerceAll parameters specs
  let broken := specs.flatMap fun spec =>
    if unread.any (·.parameter == spec.name) then []
    else spec.violations (values.get? spec.name)
  verdict (inDeclarationOrder specs (unread ++ broken)) values

end Rulebook.Parameter
