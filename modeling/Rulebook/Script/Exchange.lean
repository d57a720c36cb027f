import Rulebook.Script.Datum
import Rulebook.Value.Basic
import Rulebook.Json.Reader

/-!
# Script values outside of scripts

The JSON form of a script value, the script value of a JSON value, and the values that actions see.
An integer that has no 64-bit form becomes a double in a script. Only plain data can be handed to an
action: functions, ranges, points in time and bytes cannot.
-/

namespace Rulebook.Script

namespace Datum

mutual

/-- The script value of a JSON value. -/
def ofJson : Json → Datum
  | .null => unit
  | .bool b => bool b
  | .integer n =>
    if -0x8000000000000000 ≤ n ∧ n < 0x8000000000000000 then int (Int64.ofInt n) else float (Decimal.ofInt n)
  | .real x => float x
  | .string s => text s
  | .array items => list (ofJsonItems items)
  | .object members => map (ofJsonMembers members)

/-- The script values of JSON values. -/
def ofJsonItems : List Json → List Datum
  | [] => []
  | item :: rest => ofJson item :: ofJsonItems rest

/-- The members of a map, in order. -/
def ofJsonMembers : List (String × Json) → List (String × Datum)
  | [] => []
  | (name, value) :: rest => Fields.putSorted (ofJsonMembers rest) name (ofJson value)

end

mutual

/-- The JSON form of a script value. -/
def toJson : Datum → Json
  | unit => .null
  | bool b => .bool b
  | int n => .integer n.toInt
  | float x => if x.isNaN || x.isInf then .null else .real x
  | char c => .string c.toString
  | text s => .string s
  | list items => .array (toJsonItems items)
  | map members => .object (toJsonMembers members)
  | bytes bs => .array (bs.map fun b => .integer b.toNat)
  | function name _ => .string name
  | instant _ => .string "std::time::Instant"
  | value => .string value.typeName

/-- The JSON forms of items. -/
def toJsonItems : List Datum → List Json
  | [] => []
  | item :: rest => toJson item :: toJsonItems rest

/-- The JSON forms of members. -/
def toJsonMembers : List (String × Datum) → List (String × Json)
  | [] => []
  | (name, value) :: rest => (name, toJson value) :: toJsonMembers rest

end

/-- The script value that a JSON text denotes. -/
def readJson? (text : String) : Option Datum := (Json.read? text).map ofJson

mutual

/-- The script value of a value. -/
def ofValue : Value → Datum
  | .null => unit
  | .undefined => unit
  | .bool b => bool b
  | .number (.int32 n) => int (Int64.ofInt n.toInt)
  | .number (.int64 n) => int n
  | .number (.word64 n) =>
    if n.toNat < 0x8000000000000000 then int (Int64.ofNat n.toNat) else float (Decimal.ofInt n.toNat)
  | .number (.double x) => float x
  | .number (.wide n) => float (Decimal.ofInt n)
  | .text s => text s
  | .list items => list (ofValues items)
  | .record fields => map (ofFields fields)

/-- The script values of values. -/
def ofValues : List Value → List Datum
  | [] => []
  | item :: rest => ofValue item :: ofValues rest

/-- The members of a map, in order. -/
def ofFields : List (String × Value) → List (String × Datum)
  | [] => []
  | (name, value) :: rest => Fields.putSorted (ofFields rest) name (ofValue value)

end

/-- Why a script value cannot be handed to an action. -/
inductive Unfit where
  | bytes
  | noData (typeName : String)
  deriving Repr, DecidableEq

mutual

/-- The value that an action sees. -/
def toValue : Datum → Except Unfit Value
  | unit => .ok .null
  | bool b => .ok (.bool b)
  | int n => .ok (.ofInt64 n)
  | float x => .ok (.number (.double x))
  | char c => .ok (.text c.toString)
  | text s => .ok (.text s)
  | list items => (toValues items).map .list
  | map members => (toFields members).map .record
  | bytes _ => .error .bytes
  | value => .error (.noData value.typeName)

/-- The values of items. -/
def toValues : List Datum → Except Unfit (List Value)
  | [] => .ok []
  | item :: rest => do
    let value ← toValue item
    return value :: (← toValues rest)

/-- The fields of members. -/
def toFields : List (String × Datum) → Except Unfit (List (String × Value))
  | [] => .ok []
  | (name, item) :: rest => do
    let value ← toValue item
    return (name, value) :: (← toFields rest)

end

end Datum
end Rulebook.Script
