import Rulebook.Value.Verbatim
import Rulebook.Decimal.Text

/-!
# Kinds of parameters

What a parameter may be declared to be. A kind says which values are of it and how the text of a
parameter is read as a value of it.
-/

namespace Rulebook.Parameter

/-- A kind of parameters. -/
inductive Kind where
  | string
  | integer
  | number
  | boolean
  | object
  | array
  | any
  deriving Repr, DecidableEq

namespace Kind

/-- The name of a kind. -/
def name : Kind → String
  | string => "string"
  | integer => "integer"
  | number => "number"
  | boolean => "boolean"
  | object => "object"
  | array => "array"
  | any => "any"

/-- The kind that goes by a name, in any case. -/
def ofName? (name : String) : Option Kind :=
  match name.map Char.toLower with
  | "string" => some string
  | "integer" => some integer
  | "int" => some integer
  | "number" => some number
  | "float" => some number
  | "boolean" => some boolean
  | "bool" => some boolean
  | "object" => some object
  | "array" => some array
  | "any" => some any
  | _ => none

/-- Whether a value is of the kind. Every number that did not arrive as a double is an integer. -/
def accepts : Kind → Value → Bool
  | any, _ => true
  | string, .text _ => true
  | integer, .number n => !n.isDouble
  | number, .number _ => true
  | boolean, .bool _ => true
  | object, .record _ => true
  | array, .list _ => true
  | _, _ => false

/-- The value of the kind that a text stands for. -/
def coerce (kind : Kind) (raw : String) : Option Value :=
  match kind with
  | string => some (.text raw)
  | any => some (.text raw)
  | integer => (Decimal.readInt64? (Text.trim raw.toList)).map Value.ofInt64
  | number => (Decimal.readFloat? (Text.trim raw.toList)).map fun x => .number (.double x)
  | boolean =>
    let word := (Text.trim raw.toList).map Char.toLower
    if word = "true".toList then some (.bool true)
    else if word = "false".toList then some (.bool false)
    else none
  | object => (Verbatim.read? raw).filter object.accepts
  | array => (Verbatim.read? raw).filter array.accepts

end Kind
end Rulebook.Parameter
