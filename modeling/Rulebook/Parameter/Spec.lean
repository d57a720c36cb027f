import Rulebook.Parameter.Kind
import Rulebook.Pattern.Reader

/-!
# Declarations of parameters

A declaration names a parameter, says of which kind it is and whether it is required, and limits its
values. It is read from a value with fields of fixed names.
-/

namespace Rulebook.Parameter

/-- The declaration of a parameter. -/
structure Spec where
  name : String
  kind : Kind := .any
  required : Bool := false
  min : Option Float := none
  max : Option Float := none
  minLength : Option Nat := none
  maxLength : Option Nat := none
  pattern : Option String := none
  allowed : List Value := []

/-- What is wrong with the value of a declaration. -/
inductive SpecError where
  | name
  | unknownKind (name : String)
  | kind
  | required
  /-- A limit is not a number. -/
  | limit (field : String)
  /-- The text of the pattern is no pattern. -/
  | malformedPattern (text : String)
  | pattern
  | allowed
  deriving Repr, DecidableEq

/-- The wording of the error. -/
def SpecError.message : SpecError → String
  | name => "name must be a string"
  | unknownKind word => "unknown type " ++ word
  | kind => "type must be a string"
  | required => "required must be a boolean"
  | limit field => field ++ " must be a number"
  | malformedPattern text => "invalid pattern: " ++ text
  | pattern => "pattern must be a string"
  | allowed => "allowed must be an array"

/-- A double as a count: its integral part, not below zero and not above the greatest word. What is
not a number counts as zero. -/
def toCount (x : Float) : Nat := x.toUInt64.toNat

namespace Spec

/-- The name, which has to be a text. -/
def readName : Option Value → Except SpecError String
  | some (.text name) => .ok name
  | _ => .error .name

/-- The kind that goes by the text; any kind if there is none. -/
def readKind : Option Value → Except SpecError Kind
  | some (.text word) =>
    match Kind.ofName? word with
    | some kind => .ok kind
    | none => .error (.unknownKind word)
  | some _ => .error .kind
  | none => .ok .any

/-- Whether the parameter is required; it is not unless that is said. -/
def readRequired : Option Value → Except SpecError Bool
  | some (.bool required) => .ok required
  | some _ => .error .required
  | none => .ok false

/-- The limit under a name. -/
def limit? (field : String) : Option Value → Except SpecError (Option Float)
  | some (.number n) => .ok (some n.toFloat)
  | some _ => .error (.limit field)
  | none => .ok none

/-- The pattern, which has to be well formed. -/
def readPattern : Option Value → Except SpecError (Option String)
  | some (.text pattern) =>
    if (Pattern.read? pattern).isSome then .ok (some pattern)
    else .error (.malformedPattern pattern)
  | some _ => .error .pattern
  | none => .ok none

/-- The list of allowed values, which is empty if there is none. -/
def readAllowed : Option Value → Except SpecError (List Value)
  | some (.list allowed) => .ok allowed
  | some _ => .error .allowed
  | none => .ok []

/-- The declaration made of the members of a value, which `member` looks up. -/
def ofMembers (member : String → Option Value) : Except SpecError Spec := do
  let name ← readName (member "name")
  let kind ← readKind (member "type")
  let required ← readRequired (member "required")
  let min ← limit? "min" (member "min")
  let max ← limit? "max" (member "max")
  let minLength ← limit? "minLength" (member "minLength")
  let maxLength ← limit? "maxLength" (member "maxLength")
  let pattern ← readPattern (member "pattern")
  let allowed ← readAllowed (member "allowed")
  return {
    name, kind, required, min, max
    minLength := minLength.map toCount
    maxLength := maxLength.map toCount
    pattern, allowed }

/-- The declaration that a value describes. A value without members is a fault. -/
def ofValue (value : Value) : Except Fault (Except SpecError Spec) := do
  let _ ← value.member "name"
  return ofMembers fun name => (value.member name).toOption.join

end Spec
end Rulebook.Parameter
