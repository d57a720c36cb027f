import Rulebook.Fields
import Rulebook.Fault
import Rulebook.Decimal.Layout
import Rulebook.Decimal.Reading

/-!
# Values

The values that parameters, actions and configurations are made of. A number remembers in which
machine format it arrived, and numbers of different formats are never equal, even when they denote
the same number.
-/

namespace Rulebook

/-- A number in one of the formats in which numbers arrive. -/
inductive Number where
  | int32 (n : Int32)
  | int64 (n : Int64)
  | word64 (n : UInt64)
  | double (x : Float)
  /-- An integer beyond 64 bits. -/
  | wide (n : Int)

namespace Number

/-- Whether two numbers have the same format and compare equal in it. -/
def same : Number → Number → Bool
  | int32 a, int32 b => a == b
  | int64 a, int64 b => a == b
  | word64 a, word64 b => a == b
  | double a, double b => a == b
  | wide a, wide b => a == b
  | _, _ => false

/-- Whether the number is a double. -/
def isDouble : Number → Bool
  | double _ => true
  | _ => false

/-- The integer that a number other than a double stands for. -/
def toInt? : Number → Option Int
  | int32 n => some n.toInt
  | int64 n => some n.toInt
  | word64 n => some n.toNat
  | double _ => none
  | wide n => some n

/-- The double nearest to the number. -/
def toFloat : Number → Float
  | int32 n => Decimal.ofInt n.toInt
  | int64 n => Decimal.ofInt n.toInt
  | word64 n => Decimal.ofInt n.toNat
  | double x => x
  | wide n => Decimal.ofInt n

/-- The text of the number, without an exponent. -/
def text : Number → String
  | int32 n => toString n.toInt
  | int64 n => toString n.toInt
  | word64 n => toString n.toNat
  | double x => Layout.plain.render x
  | wide n => toString n

end Number

/-- A value. -/
inductive Value where
  | null
  /-- The value of something that was never given. -/
  | undefined
  | bool (b : Bool)
  | number (n : Number)
  | text (s : String)
  | list (items : List Value)
  | record (fields : List (String × Value))
  deriving Inhabited

namespace Value

/-- An integer in the format that holds it in a script. -/
def ofInt64 (n : Int64) : Value := number (.int64 n)

/-- Whether the value is a record. -/
def isRecord : Value → Bool
  | record _ => true
  | _ => false

/-- Whether the value stands for something missing. -/
def isMissing : Value → Bool
  | null => true
  | undefined => true
  | _ => false

mutual

/-- Equality of values. The order of the fields of a record does not matter. -/
def same : Value → Value → Bool
  | null, null => true
  | undefined, undefined => true
  | bool a, bool b => a == b
  | number a, number b => a.same b
  | text a, text b => a == b
  | list a, list b => sameItems a b
  | record a, record b => a.length == b.length && sameFields a b
  | _, _ => false

/-- Equality of lists of values. -/
def sameItems : List Value → List Value → Bool
  | [], [] => true
  | a :: as, b :: bs => same a b && sameItems as bs
  | _, _ => false

/-- Whether every field on the left has an equal value under its name on the right. -/
def sameFields : List (String × Value) → List (String × Value) → Bool
  | [], _ => true
  | (name, a) :: rest, bs =>
    (match Fields.get? bs name with
      | some b => same a b
      | none => false) && sameFields rest bs

end

/-- Looking up a name in a value. A record answers with the value of the field; a list has no names
and answers every name with its first item; on anything else the question is a fault. -/
def member : Value → String → Except Fault (Option Value)
  | record fields, name => .ok (Fields.get? fields name)
  | list items, _ => .ok items.head?
  | _, _ => .error .noMembers

end Value
end Rulebook
