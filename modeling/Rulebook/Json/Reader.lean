import Rulebook.Json.Basic
import Rulebook.Json.Lexeme

/-!
# Reading JSON

A text denotes at most one value. Brackets may be nested at most `maxDepth` deep, a later member
replaces an earlier one of the same name, and a number beyond the range of doubles is refused.
-/

namespace Rulebook.Json

/-- The greatest number of brackets around a value that a text may have. -/
def maxDepth : Nat := 127

/-- The value of a numeral: an integer when it is written as one and fits 64 bits, else a double. A
negative zero is a double. -/
def ofNumeral (n : Numeral) : Option Json :=
  let k := n.toInt
  if n.isIntegral && decide (-0x8000000000000000 ≤ k ∧ k < 0x10000000000000000) && !(n.negative && k == 0) then
    some (integer k)
  else
    let x := n.toFloat
    if x.isInf then none else some (real x)

/-- The string literal whose inside starts the text, decoded, and what follows it. -/
def readString (s : List Char) : Option (String × List Char) := do
  let (inside, after) ← splitString s
  let decoded ← decode inside
  return (String.ofList decoded, after)

mutual

/-- The value at the start of a text, and what follows it. -/
def readValue : (fuel depth : Nat) → List Char → Option (Json × List Char)
  | 0, _, _ => none
  | fuel + 1, depth, s =>
    match skipSpace s with
    | 'n' :: 'u' :: 'l' :: 'l' :: rest => some (null, rest)
    | 't' :: 'r' :: 'u' :: 'e' :: rest => some (bool true, rest)
    | 'f' :: 'a' :: 'l' :: 's' :: 'e' :: rest => some (bool false, rest)
    | '"' :: rest => do
      let (text, after) ← readString rest
      return (string text, after)
    | '[' :: rest =>
      if depth = 0 then none
      else
        match skipSpace rest with
        | ']' :: after => some (array [], after)
        | rest => do
          let (items, after) ← readItems fuel (depth - 1) rest
          return (array items, after)
    | '\x7b' :: rest =>
      if depth = 0 then none
      else
        match skipSpace rest with
        | '\x7d' :: after => some (object [], after)
        | rest => do
          let (members, after) ← readMembers fuel (depth - 1) rest
          return (object (Fields.ofPairs members), after)
    | s => do
      let (numeral, after) ← splitNumeral false s
      let value ← ofNumeral numeral
      return (value, after)

/-- The items up to the closing bracket, and what follows it. -/
def readItems : (fuel depth : Nat) → List Char → Option (List Json × List Char)
  | 0, _, _ => none
  | fuel + 1, depth, s => do
    let (item, s) ← readValue fuel depth s
    match skipSpace s with
    | ',' :: rest =>
      let (items, after) ← readItems fuel depth rest
      return (item :: items, after)
    | ']' :: after => return ([item], after)
    | _ => none

/-- The members up to the closing brace, and what follows it. -/
def readMembers : (fuel depth : Nat) → List Char → Option (List (String × Json) × List Char)
  | 0, _, _ => none
  | fuel + 1, depth, s =>
    match skipSpace s with
    | '"' :: rest => do
      let (name, s) ← readString rest
      match skipSpace s with
      | ':' :: rest =>
        let (value, s) ← readValue fuel depth rest
        match skipSpace s with
        | ',' :: rest =>
          let (members, after) ← readMembers fuel depth rest
          return ((name, value) :: members, after)
        | '\x7d' :: after => return ([(name, value)], after)
        | _ => none
      | _ => none
    | _ => none

end

/-- The value that a text denotes. -/
def read? (text : String) : Option Json := do
  let s := text.toList
  let (value, rest) ← readValue (2 * s.length + 2) maxDepth s
  if (skipSpace rest).isEmpty then return value else none

end Rulebook.Json
