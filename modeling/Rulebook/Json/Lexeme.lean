import Rulebook.Decimal.Text

/-!
# Lexemes of JSON

Blanks, string literals and number literals, as functions on what is left of a text. A string is
first split off as it is written and then decoded, so that a reader that keeps strings as they are
written can share the first half.
-/

namespace Rulebook.Json

/-- The characters that may stand between lexemes. -/
def isSpace (c : Char) : Bool := c == ' ' || c == '\n' || c == '\t' || c == '\r'

/-- The text without the blanks at its start. -/
def skipSpace (s : List Char) : List Char := s.dropWhile isSpace

/-- The value of a hexadecimal digit. -/
def hexDigit? (c : Char) : Option Nat :=
  if c.isDigit then some (c.toNat - '0'.toNat)
  else if 'a' ≤ c ∧ c ≤ 'f' then some (c.toNat - 'a'.toNat + 10)
  else if 'A' ≤ c ∧ c ≤ 'F' then some (c.toNat - 'A'.toNat + 10)
  else none

/-- The value of four hexadecimal digits. -/
def hexWord? (a b c d : Char) : Option Nat := do
  let a ← hexDigit? a
  let b ← hexDigit? b
  let c ← hexDigit? c
  let d ← hexDigit? d
  return ((a * 16 + b) * 16 + c) * 16 + d

/-- The inside of a string literal as written, and what follows its closing quote. -/
def splitString : List Char → Option (List Char × List Char)
  | [] => none
  | '"' :: rest => some ([], rest)
  | '\\' :: c :: rest => do
    let (inside, after) ← splitString rest
    return ('\\' :: c :: inside, after)
  | c :: rest => do
    let (inside, after) ← splitString rest
    return (c :: inside, after)

/-- The character that a backslash and `c` stand for. -/
def shortEscape? (c : Char) : Option Char :=
  match c with
  | '"' => some '"'
  | '\\' => some '\\'
  | '/' => some '/'
  | 'b' => some '\x08'
  | 'f' => some '\x0c'
  | 'n' => some '\n'
  | 'r' => some '\r'
  | 't' => some '\t'
  | _ => none

/-- The characters that the inside of a string literal stands for. Control characters must be
escaped, and the two halves of a surrogate pair must stand together. -/
def decode : List Char → Option (List Char)
  | [] => some []
  | '\\' :: 'u' :: a :: b :: c :: d :: rest => do
    let high ← hexWord? a b c d
    if 0xd800 ≤ high ∧ high < 0xdc00 then
      match rest with
      | '\\' :: 'u' :: a :: b :: c :: d :: rest =>
        let low ← hexWord? a b c d
        if 0xdc00 ≤ low ∧ low < 0xe000 then
          let tail ← decode rest
          return Char.ofNat (0x10000 + (high - 0xd800) * 0x400 + (low - 0xdc00)) :: tail
        else none
      | _ => none
    else if 0xdc00 ≤ high ∧ high < 0xe000 then none
    else
      let tail ← decode rest
      return Char.ofNat high :: tail
  | '\\' :: c :: rest => do
    let c ← shortEscape? c
    let tail ← decode rest
    return c :: tail
  | ['\\'] => none
  | c :: rest =>
    if c.toNat < 32 then none
    else do
      let tail ← decode rest
      return c :: tail

/-- Whether the inside of a string literal has well-formed escapes and no control characters; the
code points that its escapes name are not looked at. -/
def isPlausible : List Char → Bool
  | [] => true
  | '\\' :: 'u' :: a :: b :: c :: d :: rest => (hexWord? a b c d).isSome && isPlausible rest
  | '\\' :: c :: rest => (shortEscape? c).isSome && isPlausible rest
  | ['\\'] => false
  | c :: rest => 32 ≤ c.toNat && isPlausible rest

/-- A number literal, taken apart. -/
structure Numeral where
  /-- Whether a minus sign stands in front. -/
  negative : Bool
  /-- The digits before the point. -/
  whole : List Char
  /-- The digits after the point, if there is a point. -/
  fraction : Option (List Char)
  /-- The exponent, if there is one. -/
  exponent : Option Int
  deriving Repr

namespace Numeral

/-- The integer that a numeral without point and exponent stands for. -/
def toInt (n : Numeral) : Int :=
  if n.negative then -(Decimal.natOfDigits n.whole : Int) else Decimal.natOfDigits n.whole

/-- Whether the numeral has neither a point nor an exponent. -/
def isIntegral (n : Numeral) : Bool := n.fraction.isNone && n.exponent.isNone

/-- The double nearest to the numeral. -/
def toFloat (n : Numeral) : Float :=
  let places := n.fraction.getD []
  Decimal.nearestSigned n.negative (Decimal.natOfDigits (n.whole ++ places))
    (n.exponent.getD 0 - places.length)

end Numeral

/-- Whether a minus sign starts a text, and what follows it. -/
def splitMinus : List Char → Bool × List Char
  | '-' :: rest => (true, rest)
  | s => (false, s)

/-- The digits before the point, and what follows them. Only a zero alone starts with a zero. -/
def splitWhole : List Char → Option (List Char × List Char)
  | '0' :: rest => some (['0'], rest)
  | c :: rest =>
    if c.isDigit then some ((c :: rest).takeWhile Char.isDigit, (c :: rest).dropWhile Char.isDigit)
    else none
  | [] => none

/-- The digits after the point, if there is a point, and what follows them. With `bare` there need
not be any. -/
def splitFraction (bare : Bool) : List Char → Option (Option (List Char) × List Char)
  | '.' :: rest =>
    let digits := rest.takeWhile Char.isDigit
    if digits.isEmpty && !bare then none else some (some digits, rest.dropWhile Char.isDigit)
  | s => some (none, s)

/-- The exponent part at the start of a text, if it is well formed, and what follows. -/
def splitExponent : List Char → Option (Option Int × List Char)
  | c :: rest =>
    if c = 'e' ∨ c = 'E' then
      let (negative, rest) := Decimal.splitSign rest
      let digits := rest.takeWhile Char.isDigit
      if digits.isEmpty then none
      else
        let e : Int := Decimal.natOfDigits digits
        some (some (if negative then -e else e), rest.dropWhile Char.isDigit)
    else some (none, c :: rest)
  | [] => some (none, [])

/-- The number literal at the start of a text, and what follows. With `bareFraction` a point need
not be followed by digits. -/
def splitNumeral (bareFraction : Bool) (s : List Char) : Option (Numeral × List Char) := do
  let (negative, s) := splitMinus s
  let (whole, s) ← splitWhole s
  let (fraction, s) ← splitFraction bareFraction s
  let (exponent, s) ← splitExponent s
  return (⟨negative, whole, fraction, exponent⟩, s)

end Rulebook.Json
