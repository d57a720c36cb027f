import Rulebook.Fields
import Rulebook.Decimal.Layout
import Rulebook.Decimal.Reading
import Rulebook.Text.Quoted
import Rulebook.Json.Printer

/-!
# Script values

The values that scripts compute with. Integers have 64 bits. The members of a map are kept in the
order of their names. `Datum.display` is the text of a value on its own, `Datum.inspect` the text of
a value inside a collection, where texts carry quotes.
-/

namespace Rulebook.Script

/-- A script value. -/
inductive Datum where
  | unit
  | bool (b : Bool)
  | int (n : Int64)
  | float (x : Float)
  | char (c : Char)
  | text (s : String)
  | list (items : List Datum)
  | map (members : List (String × Datum))
  | bytes (bytes : List UInt8)
  /-- The integers from `first` to `last`, which belongs to a closed range only. -/
  | range (first last : Int64) (closed : Bool)
  /-- Every `step`-th integer from `first` on, up to but without `last`. -/
  | steps (first last step : Int64)
  /-- The characters of a text, as something to go through. -/
  | letters (chars : List Char)
  /-- The name of a function with values for its first parameters. -/
  | function (name : String) (bound : List Datum)
  /-- A point in time. -/
  | instant (time : Nat)
  /-- A cell that several variables share. -/
  | shared (cell : Nat)
  deriving Inhabited

namespace Datum

/-- The name of the type of a value, as error messages give it. -/
def typeName : Datum → String
  | unit => "()"
  | bool _ => "bool"
  | int _ => "i64"
  | float _ => "f64"
  | char _ => "char"
  | text _ => "string"
  | list _ => "array"
  | map _ => "map"
  | bytes _ => "blob"
  | range _ _ false => "core::ops::range::Range<i64>"
  | range _ _ true => "core::ops::range::RangeInclusive<i64>"
  | steps _ _ _ => "rhai::packages::iter_basic::StepRange<i64>"
  | letters _ => "rhai::packages::iter_basic::CharsStream"
  | function _ _ => "Fn"
  | instant _ => "timestamp"
  | shared _ => "shared"

/-- The name of the type of a value, as scripts see it. -/
def scriptTypeName : Datum → String
  | range _ _ false => "range"
  | range _ _ true => "range="
  | steps _ _ _ => "packages::iter_basic::StepRange<i64>"
  | letters _ => "packages::iter_basic::CharsStream"
  | value => value.typeName

/-- Whether the value is the unit. -/
def isUnit : Datum → Bool
  | unit => true
  | _ => false

/-- A list of texts. -/
def ofTexts (texts : List String) : Datum := list (texts.map text)

/-- The number of items of a list or string as a value. -/
def ofNat (n : Nat) : Datum := int (Int64.ofNat n)

/-- The truth value that a value counts as: the unit, `false`, zero, what is not a number and the
empty text are false. -/
def isTruthy : Datum → Bool
  | unit => false
  | bool b => b
  | int n => n != 0
  | float x => x != 0.0 && !x.isNaN
  | text s => !s.isEmpty
  | _ => true

/-- A character between single quotes, with escapes. -/
def quotedCharacter (c : Char) : String :=
  let inside :=
    if c = '\x27' then ['\\', '\x27'] else if c = '"' then ['"'] else Text.quotedChar c
  String.ofList ('\x27' :: inside ++ ['\x27'])

/-- The two hexadecimal digits of a byte. -/
def hexByte (b : UInt8) : List Char :=
  [Nat.digitChar (b.toNat / 16), Nat.digitChar (b.toNat % 16)]

mutual

/-- The text of a value inside a collection. -/
def inspect : Datum → String
  | unit => "()"
  | bool b => if b then "true" else "false"
  | int n => toString n.toInt
  | float x => Layout.scriptItem.render x
  | char c => quotedCharacter c
  | text s => Text.quoted s
  | list items => "[" ++ Json.joinWith ", " (inspectItems items) ++ "]"
  | map members => "#\x7b" ++ Json.joinWith ", " (inspectMembers members) ++ "\x7d"
  | bytes bs => "[" ++ String.ofList (bs.flatMap hexByte) ++ "]"
  | range first last closed =>
    toString first.toInt ++ (if closed then "..=" else "..") ++ toString last.toInt
  | steps first last step => (steps first last step).scriptTypeName
  | letters chars => (letters chars).scriptTypeName
  | function name _ => "Fn(" ++ name ++ ")"
  | instant _ => "<timestamp>"
  | shared _ => "<shared>"

/-- The texts of items. -/
def inspectItems : List Datum → List String
  | [] => []
  | item :: rest => inspect item :: inspectItems rest

/-- The texts of members. -/
def inspectMembers : List (String × Datum) → List String
  | [] => []
  | (name, value) :: rest => (Text.quoted name ++ ": " ++ inspect value) :: inspectMembers rest

end

/-- The text of a value on its own. -/
def display : Datum → String
  | unit => ""
  | float x => Layout.script.render x
  | char c => c.toString
  | text s => s
  | value => value.inspect

/-- An integer as a double. -/
def floatOf (n : Int64) : Float := Decimal.ofInt n.toInt

mutual

/-- Equality of values. An integer equals a double of the same value and a character equals a text
of that character alone. -/
def equal : Datum → Datum → Bool
  | unit, unit => true
  | bool a, bool b => a == b
  | int a, int b => a == b
  | float a, float b => a == b
  | int a, float b => floatOf a == b
  | float a, int b => a == floatOf b
  | char a, char b => a == b
  | text a, text b => a == b
  | char a, text b => a.toString == b
  | text a, char b => a == b.toString
  | list a, list b => equalItems a b
  | map a, map b => equalMembers a b
  | bytes a, bytes b => a == b
  | range a b c, range d e f => a == d && b == e && c == f
  | instant a, instant b => a == b
  | _, _ => false

/-- Equality of lists of values. -/
def equalItems : List Datum → List Datum → Bool
  | [], [] => true
  | a :: as, b :: bs => equal a b && equalItems as bs
  | _, _ => false

/-- Equality of members in the order of their names. -/
def equalMembers : List (String × Datum) → List (String × Datum) → Bool
  | [], [] => true
  | (m, a) :: as, (n, b) :: bs => m == n && equal a b && equalMembers as bs
  | _, _ => false

end

end Datum
end Rulebook.Script
