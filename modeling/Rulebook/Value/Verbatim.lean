import Rulebook.Value.Basic
import Rulebook.Json.Lexeme
import Rulebook.Text.Class

/-!
# Verbatim JSON

A reader of JSON notation that keeps strings and names exactly as they stand between their quotes:
escapes have to be well formed but are not resolved. It also takes a hash sign before an object and
a point without digits after it, and does not limit nesting. Integers that fit 32 bits stay
integers, all other numbers are doubles.
-/

namespace Rulebook.Verbatim

open Json (skipSpace splitNumeral splitString hexWord? Numeral)

/-- The number that a numeral denotes. -/
def ofNumeral (n : Numeral) : Number :=
  let k := n.toInt
  if n.isIntegral && decide (-0x80000000 ≤ k ∧ k < 0x80000000) then .int32 (Int32.ofInt k)
  else .double n.toFloat

/-- Whether every backslash in the inside of a string literal starts an escape. -/
def hasEscapes : List Char → Bool
  | [] => true
  | '\\' :: 'u' :: a :: b :: c :: d :: rest => (hexWord? a b c d).isSome && hasEscapes rest
  | '\\' :: c :: rest => (Json.shortEscape? c).isSome && hasEscapes rest
  | ['\\'] => false
  | _ :: rest => hasEscapes rest

/-- The string literal whose inside starts the text, as written, and what follows it. -/
def readString (s : List Char) : Option (String × List Char) := do
  let (inside, after) ← splitString s
  if hasEscapes inside then return (String.ofList inside, after) else none

/-- What follows the opening of an object. -/
def afterOpening : List Char → Option (List Char)
  | '\x7b' :: rest => some rest
  | '#' :: '\x7b' :: rest => some rest
  | _ => none

mutual

/-- The value at the start of a text, and what follows it. -/
def readValue : (fuel : Nat) → List Char → Option (Value × List Char)
  | 0, _ => none
  | fuel + 1, s =>
    match s with
    | 'n' :: 'u' :: 'l' :: 'l' :: rest => some (.null, rest)
    | 't' :: 'r' :: 'u' :: 'e' :: rest => some (.bool true, rest)
    | 'f' :: 'a' :: 'l' :: 's' :: 'e' :: rest => some (.bool false, rest)
    | '"' :: rest => do
      let (text, after) ← readString rest
      return (.text text, after)
    | '[' :: rest =>
      match skipSpace rest with
      | ']' :: after => some (.list [], after)
      | rest => do
        let (items, after) ← readItems fuel rest
        return (.list items, after)
    | s =>
      match afterOpening s with
      | some rest =>
        match skipSpace rest with
        | '\x7d' :: after => some (.record [], after)
        | rest => do
          let (fields, after) ← readFields fuel rest
          return (.record (Fields.ofPairs fields), after)
      | none => do
        let (numeral, after) ← splitNumeral true s
        return (.number (ofNumeral numeral), after)

/-- The items up to the closing bracket, and what follows it. -/
def readItems : (fuel : Nat) → List Char → Option (List Value × List Char)
  | 0, _ => none
  | fuel + 1, s => do
    let (item, s) ← readValue fuel s
    match skipSpace s with
    | ',' :: rest =>
      let (items, after) ← readItems fuel (skipSpace rest)
      return (item :: items, after)
    | ']' :: after => return ([item], after)
    | _ => none

/-- The fields up to the closing brace, and what follows it. -/
def readFields : (fuel : Nat) → List Char → Option (List (String × Value) × List Char)
  | 0, _ => none
  | fuel + 1, s =>
    match s with
    | '"' :: rest => do
      let (name, s) ← readString rest
      match skipSpace s with
      | ':' :: rest =>
        let (value, s) ← readValue fuel (skipSpace rest)
        match skipSpace s with
        | ',' :: rest =>
          let (fields, after) ← readFields fuel (skipSpace rest)
          return ((name, value) :: fields, after)
        | '\x7d' :: after => return ([(name, value)], after)
        | _ => none
      | _ => none
    | _ => none

end

/-- The value that a text denotes. Blanks of any kind around it are ignored. -/
def read? (text : String) : Option Value := do
  let s := Text.trim text.toList
  let (value, rest) ← readValue (2 * s.length + 2) s
  if rest.isEmpty then return value else none

end Rulebook.Verbatim
