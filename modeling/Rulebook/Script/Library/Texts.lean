import Rulebook.Script.Arithmetic
import Rulebook.Script.Library.Places
import Rulebook.Text.Case

/-!
# Functions on texts

Texts are counted in characters. Functions that change a text change the variable that holds it and
have no value of their own, or only what they took away.
-/

namespace Rulebook.Script.Library

/-- What a function answers: its value and, if it changes its first argument, what that becomes. -/
structure Reply where
  value : Datum
  changed : Option Datum := none

namespace Reply

/-- A function that only changes its first argument. -/
def change (changed : Datum) : Reply := ⟨.unit, some changed⟩

end Reply

/-- The first place of a stretch of characters, from a place on. -/
def findText (wanted : List Char) : (place : Nat) → List Char → Option Nat
  | place, [] => if wanted.isEmpty then some place else none
  | place, c :: rest =>
    if wanted.isPrefixOf (c :: rest) then some place else findText wanted (place + 1) rest

/-- A place as a value; minus one for none. -/
def placeValue : Option Nat → Datum
  | some n => .ofNat n
  | none => .int (-1)

/-- The text of a text or character. -/
def textOf? : Datum → Option String
  | .text s => some s
  | .char c => some c.toString
  | _ => none

/-- A text with every occurrence of another one replaced. Without a text to look for, the
replacement goes between all characters. -/
def replaced (s wanted replacement : String) : String :=
  if wanted.isEmpty then
    replacement ++ String.join (s.toList.map fun c => c.toString ++ replacement)
  else Json.joinWith replacement (s.splitOn wanted)

/-- The pieces of a text between the occurrences of another one. Without a text to look for, all
characters stand on their own, between two empty pieces. -/
def splitAll (s part : String) : List String :=
  if part.isEmpty then "" :: s.toList.map Char.toString ++ [""] else s.splitOn part

/-- The words of a text. -/
def wordsOf (s : String) : List String :=
  let words := s.toList.foldr (fun c words =>
    match words with
    | word :: others => if Text.isBlank c then [] :: word :: others else (c :: word) :: others
    | [] => if Text.isBlank c then [[], []] else [[c]]) [[]]
  (words.filter fun word => !word.isEmpty).map String.ofList

/-- A text of at least `length` characters, filled up with a text. -/
def padded (s : String) (length : Int64) (filler : String) : String :=
  let missing := (length.toInt - s.length).toNat
  if filler.isEmpty || missing = 0 then s
  else
    let copies := (missing + filler.length - 1) / filler.length
    s ++ String.join (List.replicate copies filler)

/-- A piece of a text. -/
def piece (s : String) (start count : Int) : String := String.ofList (slice s.toList start count)

/-- The pieces between the first occurrences of a text, `count` of them at most. -/
def splitFirst (s part : String) (count : Nat) : List String :=
  let pieces := splitAll s part
  if pieces.length ≤ count then pieces
  else pieces.take (count - 1) ++ [Json.joinWith part (pieces.drop (count - 1))]

/-- The pieces between the last occurrences of a text, the last piece first. -/
def splitLast (s part : String) (count : Nat) : List String :=
  let backwards (t : String) : String := String.ofList t.toList.reverse
  (splitFirst (backwards s) (backwards part) count).map backwards

/-- At most `count` characters of a text from a place on. -/
def lettersFrom (s : String) (start count : Int) : Datum :=
  .letters (if 0 ≤ start then (s.toList.drop start.toNat).take count.toNat
    else (s.toList.drop (nearestPlace s.length start)).take count.toNat)

/-- The functions on texts that change nothing. -/
def textFunctions (name : String) (arguments : List Datum) : Answer Datum :=
  match name, arguments with
  | "len", [.text s] => some (.ok (.ofNat s.length))
  | "bytes", [.text s] => some (.ok (.ofNat s.utf8ByteSize))
  | "is_empty", [.text s] => some (.ok (.bool s.isEmpty))
  | "to_upper", [.text s] => some (.ok (.text (Text.toUpper s)))
  | "to_lower", [.text s] => some (.ok (.text (Text.toLower s)))
  | "to_upper", [.char c] => some (.ok (.char (Text.upperChar c)))
  | "to_lower", [.char c] => some (.ok (.char (Text.lowerChar c)))
  | "contains", [.text s, part] =>
    (textOf? part).map fun part => .ok (.bool (findText part.toList 0 s.toList).isSome)
  | "starts_with", [.text s, .text part] =>
    some (.ok (.bool (part.toList.isPrefixOf s.toList)))
  | "ends_with", [.text s, .text part] =>
    some (.ok (.bool (part.toList.reverse.isPrefixOf s.toList.reverse)))
  | "index_of", [.text s, part] =>
    (textOf? part).map fun part => .ok (placeValue (findText part.toList 0 s.toList))
  | "index_of", [.text s, part, .int start] =>
    (textOf? part).map fun part =>
      let first := nearestPlace s.length start.toInt
      .ok (placeValue (findText part.toList first (s.toList.drop first)))
  | "sub_string", [.text s, .int start, .int count] =>
    some (.ok (.text (piece s start.toInt count.toInt)))
  | "sub_string", [.text s, .int start] => some (.ok (.text (piece s start.toInt s.length)))
  | "sub_string", [.text s, .range a b closed] =>
    let (start, count) := rangeStretch a b closed
    some (.ok (.text (piece s start count)))
  | "get", [.text s, .int index] =>
    some (.ok (match (placeOf? s.length index.toInt).bind (s.toList[·]?) with
      | some c => .char c
      | none => .unit))
  | "split", [.text s] => some (.ok (.ofTexts (wordsOf s)))
  | "split", [.text s, .int index] =>
    let place := nearestPlace s.length index.toInt
    some (.ok (.ofTexts [String.ofList (s.toList.take place), String.ofList (s.toList.drop place)]))
  | "split", [.text s, part] =>
    (textOf? part).map fun part =>
      .ok (.ofTexts (splitAll s part))
  | "split", [.text s, part, .int count] =>
    (textOf? part).map fun part =>
      .ok (.ofTexts (splitFirst s part (max count.toInt 1).toNat))
  | "split_rev", [.text s, part] =>
    (textOf? part).map fun part => .ok (.ofTexts (splitLast s part (s.length + 2)))
  | "split_rev", [.text s, part, .int count] =>
    (textOf? part).map fun part =>
      .ok (.ofTexts (splitLast s part (max count.toInt 1).toNat))
  | "to_blob", [.text s] => some (.ok (.bytes s.toUTF8.toList))
  | "to_chars", [.text s] => some (.ok (.list (s.toList.map .char)))
  | "chars", [.text s] => some (.ok (.letters s.toList))
  | "chars", [.text s, .int start] => some (.ok (lettersFrom s start.toInt s.length))
  | "chars", [.text s, .int start, .int count] =>
    some (.ok (lettersFrom s start.toInt count.toInt))
  | "chars", [.text s, .range a b closed] =>
    let (start, count) := rangeStretch a b closed
    some (.ok (lettersFrom s start count))
  | _, _ => none

/-- The functions that change a text. -/
def textChanges (name : String) (arguments : List Datum) : Answer Reply :=
  match name, arguments with
  | "trim", [.text s] => some (.ok (.change (.text (String.ofList (Text.trim s.toList)))))
  | "clear", [.text _] => some (.ok (.change (.text "")))
  | "make_upper", [.text s] => some (.ok (.change (.text (Text.toUpper s))))
  | "make_lower", [.text s] => some (.ok (.change (.text (Text.toLower s))))
  | "truncate", [.text s, .int n] =>
    some (.ok (.change (.text (String.ofList (s.toList.take n.toInt.toNat)))))
  | "pop", [.text s] =>
    match s.toList.reverse with
    | c :: rest => some (.ok ⟨.char c, some (.text (String.ofList rest.reverse))⟩)
    | [] => some (.ok ⟨.unit, none⟩)
  | "pop", [.text s, .int n] =>
    let kept := s.length - min n.toInt.toNat s.length
    some (.ok ⟨.text (String.ofList (s.toList.drop kept)),
      some (.text (String.ofList (s.toList.take kept)))⟩)
  | "remove", [.text s, part] =>
    (textOf? part).map fun part => .ok (.change (.text (replaced s part "")))
  | "replace", [.text s, wanted, replacement] =>
    match textOf? wanted, textOf? replacement with
    | some wanted, some replacement => some (.ok (.change (.text (replaced s wanted replacement))))
    | _, _ => none
  | "crop", [.text s, .int start, .int count] =>
    some (.ok (.change (.text (piece s start.toInt count.toInt))))
  | "crop", [.text s, .int start] =>
    some (.ok (.change (.text (piece s start.toInt s.length))))
  | "crop", [.text s, .range a b closed] =>
    let (start, count) := rangeStretch a b closed
    some (.ok (.change (.text (piece s start count))))
  | "pad", [.text s, .int n, filler] =>
    (textOf? filler).map fun filler => .ok (.change (.text (padded s n filler)))
  | "set", [.text s, .int index, .char c] =>
    some (.ok (match placeOf? s.length index.toInt with
      | some i => .change (.text (String.ofList (s.toList.set i c)))
      | none => ⟨.unit, none⟩))
  | "append", [.text s, more] => some (.ok (.change (.text (s ++ more.display))))
  | "push", [.text s, more] => some (.ok (.change (.text (s ++ more.display))))
  | _, _ => none

end Rulebook.Script.Library
