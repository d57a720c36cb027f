/-!
# Doubles from decimal digits

The double nearest to a decimal. Exponents far outside the range of doubles are answered at once,
without computing their powers of ten.
-/

namespace Rulebook.Decimal

/-- The value of a list of decimal digits. -/
def natOfDigits (digits : List Char) : Nat :=
  digits.foldl (fun n c => 10 * n + (c.toNat - '0'.toNat)) 0

/-- The double nearest to `digits * 10 ^ exponent`; infinite when there is none. -/
def nearest (digits : Nat) (exponent : Int) : Float :=
  let size : Int := (Nat.toDigits 10 digits).length
  if digits = 0 then 0.0
  else if exponent + size > 400 then 1.0 / 0.0
  else if exponent + size < -400 then 0.0
  else if 0 ≤ exponent then Float.ofScientific digits false exponent.toNat
  else Float.ofScientific digits true (-exponent).toNat

/-- The double with the given sign nearest to `digits * 10 ^ exponent`. -/
def nearestSigned (negative : Bool) (digits : Nat) (exponent : Int) : Float :=
  let x := nearest digits exponent
  if negative then -x else x

/-- The double nearest to an integer, a tie going to the even mantissa. -/
def ofInt (n : Int) : Float :=
  nearestSigned (n < 0) n.natAbs 0

end Rulebook.Decimal
