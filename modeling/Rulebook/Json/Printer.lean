import Rulebook.Json.Basic
import Rulebook.Decimal.Layout
import Rulebook.Text.Quoted

/-!
# Writing JSON

The compact form has no blanks; the indented form puts every item and member on a line of its own,
two spaces deeper than the brackets around it. Only the quote, the backslash and the characters
below the space are escaped in strings.
-/

namespace Rulebook.Json

/-- The form of one character inside a string. -/
def escapeChar (c : Char) : List Char :=
  match c with
  | '"' => ['\\', '"']
  | '\\' => ['\\', '\\']
  | '\n' => ['\\', 'n']
  | '\r' => ['\\', 'r']
  | '\t' => ['\\', 't']
  | '\x08' => ['\\', 'b']
  | '\x0c' => ['\\', 'f']
  | c =>
    if c.toNat < 32 then
      ['\\', 'u', '0', '0', Nat.digitChar (c.toNat / 16), Nat.digitChar (c.toNat % 16)]
    else [c]

/-- A string between its quotes. -/
def quote (s : String) : String :=
  String.ofList ('"' :: s.toList.flatMap escapeChar ++ ['"'])

/-- The texts with a comma between each two. -/
def joinWith (separator : String) : List String → String
  | [] => ""
  | [text] => text
  | text :: rest => text ++ separator ++ joinWith separator rest

mutual

/-- The compact form. -/
def compact : Json → String
  | null => "null"
  | bool true => "true"
  | bool false => "false"
  | integer n => toString n
  | real x => Layout.document.render x
  | string s => quote s
  | array items => "[" ++ joinWith "," (compactItems items) ++ "]"
  | object members => "\x7b" ++ joinWith "," (compactMembers members) ++ "\x7d"

/-- The compact forms of the items. -/
def compactItems : List Json → List String
  | [] => []
  | item :: rest => compact item :: compactItems rest

/-- The compact forms of the members. -/
def compactMembers : List (String × Json) → List String
  | [] => []
  | (name, value) :: rest => (quote name ++ ":" ++ compact value) :: compactMembers rest

end

/-- A line break followed by `depth` steps of indentation. -/
def lineBreak (depth : Nat) : String := "\n" ++ String.ofList (List.replicate (2 * depth) ' ')

mutual

/-- The indented form inside `depth` brackets. -/
def indentedAt (depth : Nat) : Json → String
  | array [] => "[]"
  | object [] => "\x7b\x7d"
  | array items =>
    "[" ++ joinWith "," (indentedItems (depth + 1) items) ++ lineBreak depth ++ "]"
  | object members =>
    "\x7b" ++ joinWith "," (indentedMembers (depth + 1) members) ++ lineBreak depth ++ "\x7d"
  | value => compact value

/-- The indented forms of the items, each after its line break. -/
def indentedItems (depth : Nat) : List Json → List String
  | [] => []
  | item :: rest => (lineBreak depth ++ indentedAt depth item) :: indentedItems depth rest

/-- The indented forms of the members, each after its line break. -/
def indentedMembers (depth : Nat) : List (String × Json) → List String
  | [] => []
  | (name, value) :: rest =>
    (lineBreak depth ++ quote name ++ ": " ++ indentedAt depth value) :: indentedMembers depth rest

end

/-- The indented form. -/
def indented (value : Json) : String := indentedAt 0 value

end Rulebook.Json
