import Rulebook.Script.Problem
import Rulebook.Decimal.Shortest

/-!
# Operators on values

Integers compute exactly or not at all: a result that 64 bits do not hold is an error. Where an
integer meets a double, both count as doubles. Texts can be joined with every value. Values of
different kinds can be compared: they are not equal, and none is less than the other.
-/

namespace Rulebook.Script

/-- What an operator or function answers; none if it does not exist for its arguments. -/
abbrev Answer (α : Type) := Option (Except Problem α)

namespace Arithmetic

/-- An integer result. -/
def checked (operation : String) (a b : Int64) (sign : String) (n : Int) : Except Problem Datum :=
  if -0x8000000000000000 ≤ n ∧ n < 0x8000000000000000 then .ok (.int (Int64.ofInt n))
  else .error (.arithmetic
    (operation ++ " overflow: " ++ toString a.toInt ++ " " ++ sign ++ " " ++ toString b.toInt))

/-- A shift to the left; one to the right if the count is negative. -/
def shiftLeft (a b : Int64) : Int64 :=
  if b.toInt < 0 then
    if -b.toInt < 64 then Int64.ofInt (Int.fdiv a.toInt (Nat.pow 2 (-b.toInt).toNat))
    else if a.toInt < 0 then -1 else 0
  else if b.toInt < 64 then Int64.ofInt (a.toInt * Nat.pow 2 b.toInt.toNat)
  else 0

/-- The operators on integers. -/
def onInts (operator : String) (a b : Int64) : Answer Datum :=
  let x := a.toInt
  let y := b.toInt
  match operator with
  | "+" => some (checked "Addition" a b "+" (x + y))
  | "-" => some (checked "Subtraction" a b "-" (x - y))
  | "*" => some (checked "Multiplication" a b "*" (x * y))
  | "/" =>
    some (if y = 0 then
      .error (.arithmetic ("Division by zero: " ++ toString x ++ " / " ++ toString y))
    else checked "Division" a b "/" (Int.tdiv x y))
  | "%" =>
    some (if y = 0 then
      .error (.arithmetic ("Modulo division by zero: " ++ toString x ++ " % " ++ toString y))
    else if x = -0x8000000000000000 ∧ y = -1 then
      .error (.arithmetic ("Modulo division overflow: " ++ toString x ++ " % " ++ toString y))
    else .ok (.int (Int64.ofInt (Int.tmod x y))))
  | "**" =>
    some (if y < 0 then
      .error (.arithmetic ("Integer raised to a negative power: " ++ toString x ++ " ** " ++
        toString y))
    else if x = 0 ∨ x = 1 ∨ x = -1 then
      if y < 0x100000000 then
        .ok (.int (Int64.ofInt (Int.pow x (y.toNat % 2 + (if y = 0 then 0 else 2)))))
      else .error (.arithmetic ("Integer raised to too large an index: " ++ toString x ++ " ** " ++
        toString y))
    else checked "Power" a b "**" (Int.pow x (min y.toNat 64)))
  | "<<" => some (.ok (.int (shiftLeft a b)))
  | ">>" => some (.ok (.int (shiftLeft a (-b))))
  | "&" => some (.ok (.int (a &&& b)))
  | "|" => some (.ok (.int (a ||| b)))
  | "^" => some (.ok (.int (a ^^^ b)))
  | ".." => some (.ok (.range a b false))
  | "..=" => some (.ok (.range a b true))
  | _ => none

/-- The remainder of a division toward zero, computed exactly. -/
def remainder (x y : Float) : Float :=
  if x.isNaN || y.isNaN || x.isInf || y == 0.0 then 0.0 / 0.0
  else if y.isInf || x == 0.0 then x
  else
    let a := Binary.ofBits x.abs.toBits
    let b := Binary.ofBits y.abs.toBits
    let e := min a.exponent b.exponent
    let m := a.mantissa <<< (a.exponent - e).toNat
    let n := b.mantissa <<< (b.exponent - e).toNat
    let r := (Float.ofNat (m % n)).scaleB e
    if x < 0.0 then -r else r

/-- The operators on doubles. -/
def onFloats (operator : String) (x y : Float) : Answer Datum :=
  match operator with
  | "+" => some (.ok (.float (x + y)))
  | "-" => some (.ok (.float (x - y)))
  | "*" => some (.ok (.float (x * y)))
  | "/" => some (.ok (.float (x / y)))
  | "%" => some (.ok (.float (remainder x y)))
  | "**" => some (.ok (.float (x ^ y)))
  | _ => none

/-- A comparison, given whether the values are equal and whether the first is less or greater. -/
def compared (operator : String) (equal less greater : Bool) : Answer Datum :=
  match operator with
  | "==" => some (.ok (.bool equal))
  | "!=" => some (.ok (.bool (!equal)))
  | "<" => some (.ok (.bool less))
  | "<=" => some (.ok (.bool (less || equal)))
  | ">" => some (.ok (.bool greater))
  | ">=" => some (.ok (.bool (greater || equal)))
  | _ => none

/-- Equality alone. -/
def equality (operator : String) (equal : Bool) : Answer Datum :=
  match operator with
  | "==" => some (.ok (.bool equal))
  | "!=" => some (.ok (.bool (!equal)))
  | _ => none

/-- The comparison of texts by their code points. -/
def onTexts (operator : String) (a b : String) : Answer Datum :=
  match operator with
  | "+" => some (.ok (.text (a ++ b)))
  | "-" => some (.ok (.text (if b.isEmpty then a else String.join (a.splitOn b))))
  | _ => compared operator (a == b) (a < b) (b < a)

/-- The operators on truth values. -/
def onBools (operator : String) (a b : Bool) : Answer Datum :=
  match operator with
  | "&" => some (.ok (.bool (a && b)))
  | "|" => some (.ok (.bool (a || b)))
  | "^" => some (.ok (.bool (a != b)))
  | _ => compared operator (a == b) (!a && b) (a && !b)

/-- The members of both maps, those of the second one in the place of those of the first one. -/
def union (a b : List (String × Datum)) : List (String × Datum) :=
  b.foldl (fun members member => Fields.putSorted members member.1 member.2) a

/-- The operators on values of different kinds. -/
def onOthers (operator : String) (a b : Datum) : Answer Datum :=
  match operator, a, b with
  | "+", .text a, b => some (.ok (.text (a ++ b.display)))
  | "+", a, .text b => some (.ok (.text (a.display ++ b)))
  | _, _, _ => compared operator false false false

/-- The operators. -/
def apply (operator : String) (a b : Datum) : Answer Datum :=
  match a, b with
  | .int a, .int b => (onInts operator a b).or (compared operator (a == b) (a < b) (b < a))
  | .int a, .float y =>
    let x := Datum.floatOf a
    (onFloats operator x y).or (compared operator (x == y) (x < y) (x > y))
  | .float x, .int b =>
    let y := Datum.floatOf b
    (onFloats operator x y).or (compared operator (x == y) (x < y) (x > y))
  | .float x, .float y => (onFloats operator x y).or (compared operator (x == y) (x < y) (x > y))
  | .text a, .text b => onTexts operator a b
  | .text a, .char b => onTexts operator a b.toString
  | .char a, .text b => onTexts operator a.toString b
  | .char a, .char b =>
    if operator = "+" then some (.ok (.text (a.toString ++ b.toString)))
    else compared operator (a == b) (a < b) (b < a)
  | .bool a, .bool b => onBools operator a b
  | .unit, .unit =>
    (equality operator true).or
      (if ["<", "<=", ">", ">="].contains operator then some (.ok (.bool false)) else none)
  | .list a, .list b =>
    if operator = "+" then some (.ok (.list (a ++ b)))
    else equality operator (Datum.equalItems a b)
  | .map a, .map b =>
    if operator = "+" then some (.ok (.map (union a b)))
    else equality operator (Datum.equalMembers a b)
  | .bytes a, .bytes b =>
    if operator = "+" then some (.ok (.bytes (a ++ b))) else equality operator (a == b)
  | .range a b c, .range d e f => equality operator (a == d && b == e && c == f)
  | .instant a, .instant b =>
    if operator = "-" then
      some (.ok (.float (Decimal.ofInt ((a : Int) - b) / 1000000000.0)))
    else compared operator (a == b) (a < b) (b < a)
  | .function _ _, .function _ _ => none
  | .steps _ _ _, .steps _ _ _ => none
  | .letters _, .letters _ => none
  | a, b => onOthers operator a b

/-- The operators with one operand. -/
def applyOne (operator : String) (a : Datum) : Answer Datum :=
  match operator, a with
  | "-", .int n =>
    some (if n = Int64.minValue then
      .error (.arithmetic ("Negation overflow: -" ++ toString n.toInt))
    else .ok (.int (-n)))
  | "-", .float x => some (.ok (.float (-x)))
  | "+", .int n => some (.ok (.int n))
  | "+", .float x => some (.ok (.float x))
  | "!", .bool b => some (.ok (.bool (!b)))
  | _, _ => none

/-- What an assigning operator makes of the old value and the operand: a list takes any value as a
new item. -/
def assign (operator : String) (a b : Datum) : Answer Datum :=
  match operator, a, b with
  | "+", .list items, .list more => some (.ok (.list (items ++ more)))
  | "+", .list items, item => some (.ok (.list (items ++ [item])))
  | operator, a, b => apply operator a b

end Arithmetic
end Rulebook.Script
