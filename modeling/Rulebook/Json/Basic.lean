import Rulebook.Fields

/-!
# JSON values

The values that a JSON text denotes. Numbers are integers where the text shows an integer in the
range of 64-bit words, and doubles otherwise. `Json.sorted` brings the members of all objects into
the order of their names, which makes the written form of a value canonical.
-/

namespace Rulebook

/-- A JSON value. -/
inductive Json where
  | null
  | bool (b : Bool)
  | integer (n : Int)
  | real (x : Float)
  | string (s : String)
  | array (items : List Json)
  | object (members : List (String × Json))
  deriving Inhabited

namespace Json

mutual

/-- The same value with the members of every object in increasing order of their names. -/
def sorted : Json → Json
  | array items => array (sortedItems items)
  | object members => object (sortedMembers members)
  | value => value

/-- The items with the members of their objects in order. -/
def sortedItems : List Json → List Json
  | [] => []
  | item :: rest => sorted item :: sortedItems rest

/-- The members in increasing order of their names. -/
def sortedMembers : List (String × Json) → List (String × Json)
  | [] => []
  | (name, value) :: rest => Fields.putSorted (sortedMembers rest) name (sorted value)

end

end Json
end Rulebook
