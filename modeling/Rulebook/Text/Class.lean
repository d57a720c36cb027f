import Rulebook.Text.ClassTable

/-!
# Character classes

The classes of characters that the formats and the script language of this library refer to:
letters, digits, white space and the characters that have no visible form. Below code point 128 a
class is decided directly; above it the tables of `Rulebook.Text.ClassTable` decide.
-/

namespace Rulebook.Text

/-- The number of entries of the increasing array `bounds`, between the positions `lo` and `hi`,
that are not above `n`, counted together with the `lo` entries before them. -/
def countUpTo (bounds : Array Nat) (n lo hi : Nat) : Nat :=
  if lo < hi then
    let mid := (lo + hi) / 2
    if bounds.getD mid 0 ≤ n then countUpTo bounds n (mid + 1) hi else countUpTo bounds n lo mid
  else lo
termination_by hi - lo

/-- Membership in the class whose changes `bounds` lists. -/
def inBounds (bounds : Array Nat) (n : Nat) : Bool :=
  countUpTo bounds n 0 bounds.size % 2 == 1

/-- A letter in the widest sense: the property `Alphabetic`. -/
def isAlphabetic (c : Char) : Bool :=
  if c.toNat < 128 then c.isAlpha else inBounds alphabeticBounds c.toNat

/-- A character of one of the number categories. -/
def isNumeric (c : Char) : Bool :=
  if c.toNat < 128 then c.isDigit else inBounds numericBounds c.toNat

/-- A letter or a number. -/
def isAlphanumeric (c : Char) : Bool :=
  isAlphabetic c || isNumeric c

/-- A decimal digit of any script. -/
def isDecimalDigit (c : Char) : Bool :=
  if c.toNat < 128 then c.isDigit else inBounds decimalBounds c.toNat

/-- A character of words in the sense of text search: letters, marks, decimal digits, connectors
and joiners. -/
def isWordChar (c : Char) : Bool :=
  if c.toNat < 128 then c.isAlphanum || c == '_' else inBounds wordBounds c.toNat

/-- White space. -/
def isBlank (c : Char) : Bool :=
  if c.toNat < 128 then c == ' ' || (9 ≤ c.toNat && c.toNat ≤ 13) else inBounds blankBounds c.toNat

/-- A character without a visible form of its own; the plain space counts as visible. -/
def isHidden (c : Char) : Bool :=
  if c.toNat < 128 then c.toNat < 32 || c.toNat == 127 else inBounds hiddenBounds c.toNat

/-- A character that only extends the one before it. -/
def isExtender (c : Char) : Bool :=
  if c.toNat < 128 then false else inBounds extenderBounds c.toNat

/-- The characters of `s` from its first one that is not blank. -/
def trimLeft (s : List Char) : List Char := s.dropWhile isBlank

/-- The characters of `s` up to its last one that is not blank. -/
def trimRight (s : List Char) : List Char := (s.reverse.dropWhile isBlank).reverse

/-- The characters of `s` without the blank ones at both ends. -/
def trim (s : List Char) : List Char := trimRight (trimLeft s)

end Rulebook.Text
