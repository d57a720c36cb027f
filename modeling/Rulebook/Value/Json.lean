import Rulebook.Value.Basic
import Rulebook.Json.Printer
import Rulebook.Json.Reader

/-!
# Values and JSON

Reading a JSON text as a value, and the JSON form of a value. Integers of a JSON text become words
when they are not negative and signed integers otherwise. Only integers beyond 64 bits have no JSON
form.
-/

namespace Rulebook.Value

mutual

/-- The value that a JSON value stands for. -/
def ofJson : Json → Value
  | .null => null
  | .bool b => bool b
  | .integer n =>
    if 0 ≤ n then number (.word64 (UInt64.ofNat n.toNat)) else number (.int64 (Int64.ofInt n))
  | .real x => number (.double x)
  | .string s => text s
  | .array items => list (ofJsonItems items)
  | .object members => record (ofJsonMembers members)

/-- The values that JSON values stand for. -/
def ofJsonItems : List Json → List Value
  | [] => []
  | item :: rest => ofJson item :: ofJsonItems rest

/-- The fields that the members of a JSON object stand for. -/
def ofJsonMembers : List (String × Json) → List (String × Value)
  | [] => []
  | (name, member) :: rest => (name, ofJson member) :: ofJsonMembers rest

end

/-- The JSON form of a number. A double that is not finite has the form `null`. -/
def numberJson : Number → Option Json
  | .int32 n => some (.integer n.toInt)
  | .int64 n => some (.integer n.toInt)
  | .word64 n => some (.integer n.toNat)
  | .double x => some (if x.isNaN || x.isInf then .null else .real x)
  | .wide _ => none

mutual

/-- The JSON form of a value. -/
def toJson : Value → Option Json
  | null => some .null
  | undefined => some .null
  | bool b => some (.bool b)
  | number n => numberJson n
  | text s => some (.string s)
  | list items => (toJsonItems items).map .array
  | record fields => (toJsonFields fields).map .object

/-- The JSON forms of values. -/
def toJsonItems : List Value → Option (List Json)
  | [] => some []
  | item :: rest => do
    let item ← toJson item
    let rest ← toJsonItems rest
    return item :: rest

/-- The JSON forms of fields. -/
def toJsonFields : List (String × Value) → Option (List (String × Json))
  | [] => some []
  | (name, value) :: rest => do
    let value ← toJson value
    let rest ← toJsonFields rest
    return (name, value) :: rest

end

/-- The value that a JSON text denotes. -/
def readJson? (text : String) : Option Value := (Json.read? text).map ofJson

end Rulebook.Value
