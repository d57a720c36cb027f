import Rulebook.Decimal.Reading

/-!
# Numbers in texts

The readers for numbers that stand alone in a text: integers of 64 bits with an optional sign, and
doubles with an optional sign, point and exponent, or one of their names.
-/

namespace Rulebook.Decimal

/-- The sign at the start of a text, and what follows it. -/
def splitSign : List Char → Bool × List Char
  | '-' :: rest => (true, rest)
  | '+' :: rest => (false, rest)
  | s => (false, s)

/-- The integer of 64 bits that a text denotes. -/
def readInt64? (s : List Char) : Option Int64 :=
  let (negative, digits) := splitSign s
  if digits.isEmpty || !digits.all Char.isDigit then none
  else
    let n : Int := natOfDigits digits
    let k := if negative then -n else n
    if -0x8000000000000000 ≤ k ∧ k < 0x8000000000000000 then some (Int64.ofInt k) else none

/-- The exponent that ends a text: nothing, or a mark with a signed number. -/
def readExponent? : List Char → Option Int
  | [] => some 0
  | c :: rest =>
    if c = 'e' ∨ c = 'E' then
      let (negative, digits) := splitSign rest
      if digits.isEmpty || !digits.all Char.isDigit then none
      else
        let e : Int := natOfDigits digits
        some (if negative then -e else e)
    else none

/-- The double without sign that a text denotes. -/
def readUnsigned? (s : List Char) : Option Float :=
  let name := s.map Char.toLower
  if name = "inf".toList ∨ name = "infinity".toList then some (1.0 / 0.0)
  else if name = "nan".toList then some (0.0 / 0.0)
  else
    let whole := s.takeWhile Char.isDigit
    let (places, rest) :=
      match s.dropWhile Char.isDigit with
      | '.' :: rest => (rest.takeWhile Char.isDigit, rest.dropWhile Char.isDigit)
      | rest => ([], rest)
    if whole.isEmpty && places.isEmpty then none
    else (readExponent? rest).map fun e =>
      nearest (natOfDigits (whole ++ places)) (e - places.length)

/-- The double that a text denotes. -/
def readFloat? (s : List Char) : Option Float :=
  let (negative, rest) := splitSign s
  (readUnsigned? rest).map fun x => if negative then -x else x

end Rulebook.Decimal
