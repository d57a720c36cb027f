import Rulebook.Value.Basic
import Rulebook.Json.Printer

/-!
# Values on one line

The form in which values appear in log lines. It looks like JSON but loses the control characters of
texts. A quote gets a backslash unless one stands before it already, and the backslash goes to the
place that counts as many characters as there are bytes before the quote, which is the right place
only when all characters before it are ASCII.
-/

namespace Rulebook.Value

/-- A control character. -/
def isControl (c : Char) : Bool := c.toNat < 32 || (127 ≤ c.toNat && c.toNat < 160)

/-- The byte offsets, counted from `offset`, of the quotes without a backslash before them. -/
def bareQuotes (offset : Nat) (before : Char) : List Char → List Nat
  | [] => []
  | c :: rest =>
    let others := bareQuotes (offset + c.utf8Size) c rest
    if c = '"' ∧ before ≠ '\\' then offset :: others else others

/-- The characters with a backslash inserted at each of the increasing `places`, which are counted
without the inserted ones. -/
def insertBackslashes (places : List Nat) (s : List Char) : List Char :=
  (places.zipIdx.foldl (fun text (place, inserted) =>
    text.take (place + inserted) ++ '\\' :: text.drop (place + inserted)) s)

/-- A text between quotes. -/
def inlineText (s : String) : String :=
  let shown := s.toList.filter fun c => !isControl c
  String.ofList ('"' :: insertBackslashes (bareQuotes 0 ' ' shown) shown ++ ['"'])

mutual

/-- The value on one line. -/
def inlineForm : Value → String
  | null => "null"
  | undefined => "undefined"
  | bool b => if b then "true" else "false"
  | number n => n.text
  | text s => inlineText s
  | list items => "[" ++ Json.joinWith "," (inlineItems items) ++ "]"
  | record fields => "\x7b" ++ Json.joinWith "," (inlineFields fields) ++ "\x7d"

/-- The items, each on one line. -/
def inlineItems : List Value → List String
  | [] => []
  | item :: rest => inlineForm item :: inlineItems rest

/-- The fields, each on one line. -/
def inlineFields : List (String × Value) → List String
  | [] => []
  | (name, value) :: rest => ("\"" ++ name ++ "\": " ++ inlineForm value) :: inlineFields rest

end

end Rulebook.Value
