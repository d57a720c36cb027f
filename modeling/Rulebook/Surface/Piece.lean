import Rulebook.Text.Class

/-!
# Pieces of a rule text

Conditions and statements of rules are written in a surface notation that differs in a few spellings
from the script language. `cut` divides a text into pieces: string literals, comments, words,
numbers, the spellings that have another form in scripts, and single characters.
-/

namespace Rulebook.Surface

/-- A piece of a rule text. -/
inductive Piece where
  /-- A string literal between double quotes or backquotes, with its quotes. -/
  | literal (text : List Char)
  /-- A string literal between single quotes, with its quotes. -/
  | single (text : List Char)
  /-- A comment, with its markers but without the line break after a line comment. -/
  | comment (text : List Char)
  /-- The strict comparison `===`, or `!==` when negated. -/
  | strict (negated : Bool)
  /-- The marker of an object literal of the script language: a hash sign and a brace. -/
  | objectOpen
  /-- An opening brace. -/
  | brace
  /-- A word; `afterDot` says that the piece before it is a dot. -/
  | word (afterDot : Bool) (text : List Char)
  /-- The function `JSON.parse`, or `JSON.stringify` when writing. -/
  | json (writing : Bool)
  /-- A number together with the letters, digits and dots that follow it. -/
  | number (text : List Char)
  /-- Any other character. -/
  | other (c : Char)
  deriving Repr, DecidableEq

/-- A character that can start a word. -/
def isWordStart (c : Char) : Bool := Text.isAlphabetic c || c == '_'

/-- A character that can continue a word. -/
def isWordPart (c : Char) : Bool := Text.isAlphanumeric c || c == '_'

/-- A character that can continue a number. -/
def isNumberPart (c : Char) : Bool := isWordPart c || c == '.'

/-- The rest of a literal up to and including its closing `quote`, and what follows. A backslash
takes the character after it along; without a closing quote the literal reaches to the end. -/
def splitLiteral (quote : Char) : List Char → List Char × List Char
  | [] => ([], [])
  | ['\\'] => (['\\'], [])
  | '\\' :: c :: rest =>
    let (inside, after) := splitLiteral quote rest
    ('\\' :: c :: inside, after)
  | c :: rest =>
    if c = quote then ([c], rest)
    else
      let (inside, after) := splitLiteral quote rest
      (c :: inside, after)

/-- The rest of a block comment up to and including its end marker, and what follows. -/
def splitBlock : List Char → List Char × List Char
  | [] => ([], [])
  | '*' :: '/' :: rest => (['*', '/'], rest)
  | c :: rest =>
    let (inside, after) := splitBlock rest
    (c :: inside, after)

/-- The characters after `lead` when the text starts with it and no word continues there. -/
def afterMember (lead s : List Char) : Option (List Char) :=
  match lead, s with
  | [], [] => some []
  | [], c :: rest => if isWordPart c then none else some (c :: rest)
  | _ :: _, [] => none
  | a :: lead, c :: rest => if a = c then afterMember lead rest else none

/-- The first piece of the text `c :: rest`, and what follows. -/
def next (afterDot : Bool) (c : Char) (rest : List Char) : Piece × List Char :=
  if c = '"' ∨ c = '\x60' then
    let (inside, after) := splitLiteral c rest
    (.literal (c :: inside), after)
  else if c = '\'' then
    let (inside, after) := splitLiteral c rest
    (.single (c :: inside), after)
  else if isWordStart c then
    let text := c :: rest.takeWhile isWordPart
    let after := rest.dropWhile isWordPart
    if text = ['J', 'S', 'O', 'N'] ∧ ¬ afterDot then
      match afterMember ['.', 'p', 'a', 'r', 's', 'e'] after,
          afterMember ['.', 's', 't', 'r', 'i', 'n', 'g', 'i', 'f', 'y'] after with
      | some after, _ => (.json false, after)
      | none, some after => (.json true, after)
      | none, none => (.word afterDot text, after)
    else (.word afterDot text, after)
  else if c.isDigit then (.number (c :: rest.takeWhile isNumberPart), rest.dropWhile isNumberPart)
  else
    match c, rest with
    | '/', '/' :: rest =>
      (.comment ('/' :: '/' :: rest.takeWhile (· != '\n')), rest.dropWhile (· != '\n'))
    | '/', '*' :: rest =>
      let (inside, after) := splitBlock rest
      (.comment ('/' :: '*' :: inside), after)
    | '=', '=' :: '=' :: rest => (.strict false, rest)
    | '!', '=' :: '=' :: rest => (.strict true, rest)
    | '#', '\x7b' :: rest => (.objectOpen, rest)
    | '\x7b', rest => (.brace, rest)
    | c, rest => (.other c, rest)

theorem splitLiteral_length (quote : Char) (s : List Char) :
    (splitLiteral quote s).2.length ≤ s.length := by
  fun_induction splitLiteral quote s <;> simp_all <;> omega

theorem splitBlock_length (s : List Char) : (splitBlock s).2.length ≤ s.length := by
  fun_induction splitBlock s <;> simp_all <;> omega

theorem afterMember_length {lead s after : List Char} (h : afterMember lead s = some after) :
    after.length ≤ s.length := by
  fun_induction afterMember lead s <;> simp_all <;> omega

theorem dropWhile_length (p : Char → Bool) (s : List Char) : (s.dropWhile p).length ≤ s.length :=
  (List.dropWhile_suffix p).length_le

/-- What follows the first piece is shorter than the text. -/
theorem next_length (afterDot : Bool) (c : Char) (rest : List Char) :
    (next afterDot c rest).2.length ≤ rest.length := by
  unfold next
  split
  · exact splitLiteral_length _ _
  split
  · exact splitLiteral_length _ _
  split
  · have hd := dropWhile_length isWordPart rest
    simp only
    split
    · split
      · rename_i h; exact Nat.le_trans (afterMember_length h) hd
      · rename_i h; exact Nat.le_trans (afterMember_length h) hd
      · exact hd
    · exact hd
  split
  · exact dropWhile_length _ _
  split
  · rename_i tail _ _ _ _
    have := dropWhile_length (· != '\n') tail
    simp; omega
  · rename_i tail _ _ _ _
    have := splitBlock_length tail
    simp; omega
  all_goals simp <;> omega

/-- The pieces of a text; `afterDot` says that the text follows a dot. -/
def cutFrom (afterDot : Bool) : List Char → List Piece
  | [] => []
  | c :: rest =>
    let first := next afterDot c rest
    first.1 :: cutFrom (first.1 == .other '.') first.2
termination_by s => s.length
decreasing_by
  have := next_length afterDot c rest
  simp; omega

/-- The pieces of a text. -/
def cut (text : String) : List Piece := cutFrom false text.toList

end Rulebook.Surface
