import Rulebook.Decimal.Shortest

/-!
# Written doubles

A `Layout` holds the decisions that tell one written form of a double from another: which numbers
are written with an exponent, whether an integral number keeps a fraction, how the exponent is
signed and what stands for zero and for the values that are not numbers.
-/

namespace Rulebook

/-- The decisions of one written form of doubles. -/
structure Layout where
  /-- Whether a finite positive double is written without an exponent; the second argument is the
  exponent of its leading digit. -/
  positional : Float → Int → Bool
  /-- Whether an integral number written without an exponent ends in a point and a zero. -/
  keepsPoint : Bool
  /-- Whether a positive exponent carries a plus sign. -/
  plusSign : Bool
  /-- Whether a negative zero shows its sign. -/
  signedZero : Bool
  /-- Which of two equally near decimals is written. -/
  tie : Tie
  /-- What is written when the value is not a number. -/
  notANumber : String
  /-- What is written for the positive infinity. -/
  infinity : String
  /-- What is written for the negative infinity. -/
  minusInfinity : String

namespace Layout

/-- Numbers in messages and answers: digits only, without an exponent or a superfluous point. -/
def plain : Layout where
  positional _ _ := true
  keepsPoint := false
  plusSign := false
  signedZero := true
  tie := .up
  notANumber := "NaN"
  infinity := "inf"
  minusInfinity := "-inf"

/-- Numbers in documents: always recognisable as doubles, with a signed exponent from `10 ^ 16` up
and below `10 ^ -5`. What is not a number has no document form and becomes `null`. -/
def document : Layout where
  positional _ e := -5 ≤ e && e < 16
  keepsPoint := true
  plusSign := true
  signedZero := true
  tie := .toEven
  notANumber := "null"
  infinity := "null"
  minusInfinity := "null"

/-- Numbers turned into text by a script: positional between `1e-7` and `1e13`, both rounded to
single precision. -/
def script : Layout where
  positional x _ := 1.00000001168609742308e-7 ≤ x && x ≤ 9999999827968.0
  keepsPoint := true
  plusSign := false
  signedZero := false
  tie := .up
  notANumber := "NaN"
  infinity := "inf"
  minusInfinity := "-inf"

/-- Numbers shown inside a collection of a script. -/
def scriptItem : Layout where
  positional _ e := -4 ≤ e && e < 16
  keepsPoint := true
  plusSign := false
  signedZero := true
  tie := .up
  notANumber := "NaN"
  infinity := "inf"
  minusInfinity := "-inf"

/-- The digits with a point where the exponent puts it. -/
def positionalText (layout : Layout) (d : Decimal) : String :=
  let digits := Nat.toDigits 10 d.digits
  let tail := if layout.keepsPoint then ".0" else ""
  if 0 ≤ d.exponent then
    String.ofList (digits ++ List.replicate d.exponent.toNat '0') ++ tail
  else
    let places := (-d.exponent).toNat
    if digits.length ≤ places then
      "0." ++ String.ofList (List.replicate (places - digits.length) '0' ++ digits)
    else
      String.ofList (digits.take (digits.length - places)) ++ "." ++
        String.ofList (digits.drop (digits.length - places))

/-- One digit, a point and the other digits, if there are any, and the exponent. -/
def exponentText (layout : Layout) (d : Decimal) : String :=
  let digits := Nat.toDigits 10 d.digits
  let fraction := if digits.length ≤ 1 then "" else "." ++ String.ofList (digits.drop 1)
  let e := d.leading
  let sign := if e < 0 then "-" else if layout.plusSign then "+" else ""
  String.ofList (digits.take 1) ++ fraction ++ "e" ++ sign ++ toString e.natAbs

/-- The text of a finite positive double. -/
def positiveText (layout : Layout) (x : Float) : String :=
  let d := Decimal.ofBinary (Binary.ofBits x.toBits) layout.tie
  if layout.positional x d.leading then layout.positionalText d else layout.exponentText d

/-- The text of a double. -/
def render (layout : Layout) (x : Float) : String :=
  let negative := x.toBits >>> 63 == 1
  if x.isNaN then layout.notANumber
  else if x.isInf then if negative then layout.minusInfinity else layout.infinity
  else if x == 0.0 then
    (if negative && layout.signedZero then "-" else "") ++
      (if layout.keepsPoint then "0.0" else "0")
  else (if negative then "-" else "") ++ layout.positiveText x.abs

end Layout
end Rulebook
