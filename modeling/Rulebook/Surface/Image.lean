import Rulebook.Surface.Piece

/-!
# The script form of rule texts

A rule text is turned into script text piece by piece. Every piece has an image; only single-quoted
literals, strict comparisons, a few words, the two functions of `JSON` and some braces have an image
that differs from the piece itself. Whether a brace opens an object literal depends on the script
text written before it.
-/

namespace Rulebook.Surface

/-- The characters between the quotes of a literal. -/
def literalBody (text : List Char) : List Char :=
  let inside := text.drop 1
  if inside.getLast? = some '\'' then inside.dropLast else inside

/-- The inside of a single-quoted literal, spelled for double quotes: an escaped single quote loses
its backslash and a double quote gets one. -/
def requoteBody : List Char → List Char
  | [] => []
  | ['\\'] => ['\\']
  | '\\' :: '\'' :: rest => '\'' :: requoteBody rest
  | '\\' :: c :: rest => '\\' :: c :: requoteBody rest
  | '"' :: rest => '\\' :: '"' :: requoteBody rest
  | c :: rest => c :: requoteBody rest

/-- A single-quoted literal as a double-quoted one. -/
def requote (text : List Char) : List Char :=
  '"' :: requoteBody (literalBody text) ++ ['"']

/-- Whether the script text, given in reverse, ends where an expression is expected, so that a brace
after it opens an object literal: after one of a few signs or after the word `return`. -/
def expectsExpression (written : List Char) : Bool :=
  match written.dropWhile Text.isBlank with
  | [] => false
  | c :: rest =>
    if c = '=' ∨ c = '(' ∨ c = ',' ∨ c = ':' ∨ c = '[' ∨ c = '?' then true
    else isWordPart c && (c :: rest).takeWhile isWordPart == "nruter".toList

/-- The script form of a word. A word after a dot names a member and stays as it is. -/
def wordImage (afterDot : Bool) (text : List Char) : List Char :=
  if afterDot then text
  else if text = "null".toList ∨ text = "undefined".toList then ['(', ')']
  else if text = "var".toList then ['l', 'e', 't']
  else text

namespace Piece

/-- The characters of the piece as they stand in the rule text. -/
def source : Piece → List Char
  | literal text => text
  | single text => text
  | comment text => text
  | strict false => ['=', '=', '=']
  | strict true => ['!', '=', '=']
  | objectOpen => ['#', '\x7b']
  | brace => ['\x7b']
  | word _ text => text
  | json false => ['J', 'S', 'O', 'N', '.', 'p', 'a', 'r', 's', 'e']
  | json true => ['J', 'S', 'O', 'N', '.', 's', 't', 'r', 'i', 'n', 'g', 'i', 'f', 'y']
  | number text => text
  | other c => [c]

/-- The script form of the piece after the script text `written`, which is given in reverse. -/
def image (written : List Char) : Piece → List Char
  | literal text => text
  | single text => requote text
  | comment text => text
  | strict false => ['=', '=']
  | strict true => ['!', '=']
  | objectOpen => ['#', '\x7b']
  | brace => if expectsExpression written then ['#', '\x7b'] else ['\x7b']
  | word afterDot text => wordImage afterDot text
  | json false => ['j', 's', 'o', 'n', '_', 'p', 'a', 'r', 's', 'e']
  | json true => ['j', 's', 'o', 'n', '_', 's', 't', 'r', 'i', 'n', 'g', 'i', 'f', 'y']
  | number text => text
  | other c => [c]

end Piece

/-- The script text of the pieces, in reverse, after the script text `written`. -/
def imagesAfter (written : List Char) : List Piece → List Char
  | [] => written
  | piece :: rest => imagesAfter ((piece.image written).reverse ++ written) rest

/-- The script text of one list of pieces after another. -/
theorem imagesAfter_append (written : List Char) (first second : List Piece) :
    imagesAfter written (first ++ second) = imagesAfter (imagesAfter written first) second := by
  induction first generalizing written with
  | nil => rfl
  | cons piece rest ih => exact ih _

/-- Script text is only ever added to what is written. -/
theorem exists_imagesAfter_eq (written : List Char) (pieces : List Piece) :
    ∃ added, imagesAfter written pieces = added ++ written := by
  induction pieces generalizing written with
  | nil => exact ⟨[], rfl⟩
  | cons piece rest ih =>
    obtain ⟨added, h⟩ := ih ((piece.image written).reverse ++ written)
    exact ⟨added ++ (piece.image written).reverse, by simp [imagesAfter, h]⟩

/-- The script form of a rule text. -/
def toScript (text : String) : String :=
  String.ofList (imagesAfter [] (cut text)).reverse

end Rulebook.Surface
