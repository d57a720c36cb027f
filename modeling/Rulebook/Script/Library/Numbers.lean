import Rulebook.Script.Arithmetic
import Rulebook.Decimal.Text
import Rulebook.Text.Class

/-!
# Functions on numbers
-/

namespace Rulebook.Script.Library

/-- The integer part of a double as an integer. -/
def toInt (x : Float) : Except Problem Datum :=
  if x.isNaN || x ≥ 9223372036854775808.0 || x < -9223372036854775808.0 then
    .error (.arithmetic ("Integer overflow: to_int(" ++ Layout.script.render x ++ ")"))
  else .ok (.int x.toInt64)

/-- The double without its fraction. -/
def truncated (x : Float) : Float := if x < 0.0 then x.ceil else x.floor

/-- The sign of a number: minus one, zero or one. -/
def signOf (negative zero : Bool) : Datum := .int (if negative then -1 else if zero then 0 else 1)

/-- The integer that digits to a base denote, with an optional sign. -/
def readBased? (base : Nat) (s : List Char) : Option Int :=
  let (negative, digits) := Decimal.splitSign s
  let value? (c : Char) : Option Nat :=
    if c.isDigit then some (c.toNat - '0'.toNat)
    else if c.isLower then some (c.toNat - 'a'.toNat + 10)
    else if c.isUpper then some (c.toNat - 'A'.toNat + 10)
    else none
  if digits.isEmpty then none
  else do
    let n ← digits.foldlM (fun n c => do
      let d ← value? c
      if d < base then some (base * n + d) else none) 0
    let k : Int := if negative then -(n : Int) else n
    if -0x8000000000000000 ≤ k ∧ k < 0x8000000000000000 then some k else none

/-- Reads an integer to a base. -/
def parseInt (text : String) (base : Nat) : Except Problem Datum :=
  match readBased? base (Text.trim text.toList) with
  | some n => .ok (.int (Int64.ofInt n))
  | none => .error (.arithmetic ("Error parsing integer number '" ++ text ++ "'"))

/-- Reads a double. -/
def parseFloat (text : String) : Except Problem Datum :=
  match Decimal.readFloat? (Text.trim text.toList) with
  | some x => .ok (.float x)
  | none => .error (.arithmetic ("Error parsing floating-point number '" ++ text ++ "'"))

/-- The functions on doubles that answer with a double. -/
def floatFunction? : String → Option (Float → Float)
  | "floor" => some Float.floor
  | "ceiling" => some Float.ceil
  | "round" => some Float.round
  | "int" => some truncated
  | "fraction" => some fun x => x - truncated x
  | "sqrt" => some Float.sqrt
  | "exp" => some Float.exp
  | "ln" => some Float.log
  | "log" => some Float.log10
  | "sin" => some Float.sin
  | "cos" => some Float.cos
  | "tan" => some Float.tan
  | "asin" => some Float.asin
  | "acos" => some Float.acos
  | "atan" => some Float.atan
  | "sinh" => some Float.sinh
  | "cosh" => some Float.cosh
  | "tanh" => some Float.tanh
  | "to_radians" => some fun x => x * (3.14159265358979323846 / 180.0)
  | "to_degrees" => some fun x => x * (180.0 / 3.14159265358979323846)
  | "to_float" => some id
  | _ => none

/-- The digits of an integer to a base; of a negative one, those of its two's complement. -/
def basedDigits (base : Nat) (n : Int64) : Datum :=
  .text (String.ofList (Nat.toDigits base n.toUInt64.toNat))

/-- The functions on one number. -/
def onNumber (name : String) (argument : Datum) : Answer Datum :=
  match name, argument with
  | "abs", .int n =>
    some (if n = Int64.minValue then
      .error (.arithmetic ("Negation overflow: -" ++ toString n.toInt))
    else .ok (.int (if n < 0 then -n else n)))
  | "abs", .float x => some (.ok (.float x.abs))
  | "sign", .int n => some (.ok (signOf (n < 0) (n == 0)))
  | "sign", .float x =>
    some (if x.isNaN then .error (.arithmetic "Sign of NaN is undefined")
      else .ok (signOf (x < 0.0) (x == 0.0)))
  | "is_zero", .int n => some (.ok (.bool (n == 0)))
  | "is_zero", .float x => some (.ok (.bool (x == 0.0)))
  | "is_odd", .int n => some (.ok (.bool (n.toInt % 2 == 1)))
  | "is_even", .int n => some (.ok (.bool (n.toInt % 2 == 0)))
  | "is_nan", .float x => some (.ok (.bool x.isNaN))
  | "is_infinite", .float x => some (.ok (.bool x.isInf))
  | "is_finite", .float x => some (.ok (.bool (!x.isNaN && !x.isInf)))
  | "to_int", .int n => some (.ok (.int n))
  | "to_int", .float x => some (toInt x)
  | "to_float", .int n => some (.ok (.float (Datum.floatOf n)))
  | "to_hex", .int n => some (.ok (basedDigits 16 n))
  | "to_octal", .int n => some (.ok (basedDigits 8 n))
  | "to_binary", .int n => some (.ok (basedDigits 2 n))
  | name, .float x => (floatFunction? name).map fun f => .ok (.float (f x))
  | _, _ => none

/-- The greater or lesser of two values, by an operator; the second one if neither is. -/
def chosen (operator : String) (a b : Datum) : Answer Datum :=
  match Arithmetic.apply operator a b with
  | some (.ok (.bool true)) => some (.ok a)
  | some (.ok (.bool false)) => some (.ok b)
  | _ => none

/-- Whether two values can be compared by `max` and `min`. -/
def comparable : Datum → Datum → Bool
  | .int _, .int _ => true
  | .int _, .float _ => true
  | .float _, .int _ => true
  | .float _, .float _ => true
  | .text _, .text _ => true
  | .char _, .char _ => true
  | _, _ => false

/-- A number as a double when it meets one. -/
def widened (a b : Datum) : Datum :=
  match a, b with
  | .int n, .float _ => .float (Datum.floatOf n)
  | a, _ => a

/-- The functions on numbers. -/
def numbers (name : String) (arguments : List Datum) : Answer Datum :=
  match name, arguments with
  | "parse_int", [.text s] => some (parseInt s 10)
  | "parse_int", [.text s, .int base] =>
    some (if 2 ≤ base.toInt ∧ base.toInt ≤ 36 then parseInt s base.toInt.toNat
      else .error (.arithmetic ("Invalid radix: '" ++ toString base.toInt ++ "'")))
  | "parse_float", [.text s] => some (parseFloat s)
  | "to_int", [.text _] => none
  | "max", [a, b] => if comparable a b then chosen ">" (widened a b) (widened b a) else none
  | "min", [a, b] => if comparable a b then chosen "<" (widened a b) (widened b a) else none
  | "PI", [] => some (.ok (.float 3.14159265358979323846))
  | "E", [] => some (.ok (.float 2.71828182845904523536))
  | "log", [.float x, .float base] => some (.ok (.float (x.log / base.log)))
  | "hypot", [.float x, .float y] => some (.ok (.float (x * x + y * y).sqrt))
  | "atan", [.float x, .float y] => some (.ok (.float (Float.atan2 x y)))
  | "range", [.int a, .int b] => some (.ok (.range a b false))
  | "range", [.int a, .int b, .int step] =>
    some (if step = 0 then .error (.arithmetic "step value cannot be zero")
      else .ok (.steps a b step))
  | "start", [.range a _ _] => some (.ok (.int a))
  | "end", [.range _ b _] => some (.ok (.int b))
  | "is_exclusive", [.range _ _ closed] => some (.ok (.bool (!closed)))
  | "is_inclusive", [.range _ _ closed] => some (.ok (.bool closed))
  | name, [argument] => onNumber name argument
  | _, _ => none

end Rulebook.Script.Library
