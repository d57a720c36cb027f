import Rulebook.Script.Call

/-!
# Functions that take functions

The functions on lists and maps that call a function for every item. A function with two parameters
receives the place of the item as well.
-/

namespace Rulebook.Script

/-- A function as a value: its name and the values for its first parameters. -/
structure Pointer where
  name : String
  bound : List Datum

namespace Eval

section

variable (setting : Setting) (self : Runner) (position : Option Position)

/-- The value of a function for the item at a place. -/
def onItem (f : Pointer) (item : Datum) (place : Nat) : Eval Datum :=
  callForItem setting self f.name f.bound ⟨[], item, [.ofNat place]⟩ position

/-- Whether the value of a function for the item at a place is true. -/
def holdsFor (f : Pointer) (item : Datum) (place : Nat) : Eval Bool := do
  match ← onItem setting self position f item place with
  | .bool b => return b
  | _ => return false

/-- The items for which a function holds, and the others. -/
def partition (f : Pointer) : (place : Nat) → List Datum → Eval (List Datum × List Datum)
  | _, [] => return ([], [])
  | place, item :: rest => do
    let holds ← holdsFor setting self position f item place
    let (taken, others) ← partition f (place + 1) rest
    return if holds then (item :: taken, others) else (taken, item :: others)

/-- The values of a function for all items. -/
def mapItems (f : Pointer) : (place : Nat) → List Datum → Eval (List Datum)
  | _, [] => return []
  | place, item :: rest => do
    let value ← onItem setting self position f item place
    return value :: (← mapItems f (place + 1) rest)

/-- The first item for which a function holds, and its place. -/
def findItem (f : Pointer) : (place : Nat) → List Datum → Eval (Option (Datum × Nat))
  | _, [] => return none
  | place, item :: rest => do
    if ← holdsFor setting self position f item place then return some (item, place)
    else findItem f (place + 1) rest

/-- Whether a function holds for all items; it is not called after the first one for which it does
not. -/
def holdsForAll (f : Pointer) : (place : Nat) → List Datum → Eval Bool
  | _, [] => return true
  | place, item :: rest => do
    if ← holdsFor setting self position f item place then holdsForAll f (place + 1) rest
    else return false

/-- The first value of a function for an item that is not the unit. -/
def findValue (f : Pointer) : (place : Nat) → List Datum → Eval Datum
  | _, [] => return .unit
  | place, item :: rest => do
    let value ← onItem setting self position f item place
    if value.isUnit then findValue f (place + 1) rest else return value

/-- Combines the items at their places with a value, one after the other. -/
def reduceItems (f : Pointer) : Datum → List (Datum × Nat) → Eval Datum
  | value, [] => return value
  | value, (item, place) :: rest => do
    let value ← callForItem setting self f.name f.bound ⟨[value], item, [.ofNat place]⟩ position
    reduceItems f value rest

/-- Calls a function with every item as its subject; the items as the function leaves them. -/
def visitItems (f : Pointer) : (place : Nat) → List Datum → Eval (List Datum)
  | _, [] => return []
  | place, item :: rest => do
    let arguments :=
      if (setting.function? f.name f.bound.length).isSome then f.bound
      else f.bound ++ [.ofNat place]
    let (outcome, after) ← callPointer setting self f.name arguments (some item) position
    let _ ← ofOutcome outcome
    return after.getD item :: (← visitItems f (place + 1) rest)

/-- Whether a function puts the second value before the first one. -/
def swaps (f : Pointer) (a b : Datum) : Eval Bool := do
  match ← valueOf (callPointer setting self f.name (f.bound ++ [a, b]) none position) with
  | .int n => return 0 < n
  | .bool b => return !b
  | _ => return false

/-- A sorted list with one more value, behind those that it does not belong before. -/
def insertSorted (f : Pointer) (item : Datum) : List Datum → Eval (List Datum)
  | [] => return [item]
  | a :: rest => do
    if ← swaps setting self position f a item then return item :: a :: rest
    else return a :: (← insertSorted f item rest)

/-- Sorts the items by a function. -/
def sortBy (f : Pointer) (sorted : List Datum) : List Datum → Eval (List Datum)
  | [] => return sorted
  | item :: rest => do sortBy f (← insertSorted setting self position f item sorted) rest

/-- The items without those that a function finds equal to the item before them. -/
def dedupBy (f : Pointer) : List Datum → Eval (List Datum)
  | [] => return []
  | item :: rest => do
    let rest ← dedupBy f rest
    match rest with
    | next :: others =>
      match ← valueOf (callPointer setting self f.name (f.bound ++ [item, next]) none position) with
      | .bool true => return item :: others
      | _ => return item :: next :: others
    | [] => return [item]

/-- Whether values can be put in order without a function. -/
def sortable : Datum → Bool
  | .int _ => true
  | .float _ => true
  | .char _ => true
  | .text _ => true
  | .bool _ => true
  | _ => false

/-- The items in order. All items have to be of one kind. -/
def sortPlain (items : List Datum) : Eval (List Datum) :=
  match items with
  | [] => return []
  | first :: rest =>
    if rest.any fun item => item.typeName != first.typeName then
      fail (.unknownFunction "sort" ["array"]) position
    else if sortable first then
      return items.mergeSort fun a b =>
        match Arithmetic.apply "<=" a b with
        | some (.ok (.bool b)) => b
        | _ => true
    else return items

/-- The members for whose name and value a function holds, and the others. -/
def partitionMembers (f : Pointer) :
    List (String × Datum) → Eval (List (String × Datum) × List (String × Datum))
  | [] => return ([], [])
  | (name, value) :: rest => do
    let holds := match ← (callForItem setting self f.name f.bound ⟨[.text name], value, []⟩
        position) with
      | .bool b => b
      | _ => false
    let (taken, others) ← partitionMembers f rest
    return if holds then ((name, value) :: taken, others) else (taken, (name, value) :: others)

/-- The functions that take functions. -/
def higherOrder (name : String) (arguments : List Datum) : Option (Eval Library.Reply) :=
  match name, arguments with
  | "sort", [.list items] => some do
    return .change (.list (← sortPlain position items))
  | name, .list items :: .function f bound :: more =>
    let f : Pointer := ⟨f, bound⟩
    match name, more with
    | "map", [] => some do return ⟨.list (← mapItems setting self position f 0 items), none⟩
    | "filter", [] => some do
      return ⟨.list (← partition setting self position f 0 items).1, none⟩
    | "some", [] => some do
      return ⟨.bool (← findItem setting self position f 0 items).isSome, none⟩
    | "all", [] => some do
      return ⟨.bool (← holdsForAll setting self position f 0 items), none⟩
    | "find", [] => some do
      return ⟨((← findItem setting self position f 0 items).map (·.1)).getD .unit, none⟩
    | "find_map", [] => some do return ⟨← findValue setting self position f 0 items, none⟩
    | "index_of", [] => some do
      return ⟨Library.placeValue ((← findItem setting self position f 0 items).map (·.2)), none⟩
    | "reduce", [] => some do
      return ⟨← reduceItems setting self position f .unit items.zipIdx, none⟩
    | "reduce", [start] => some do
      return ⟨← reduceItems setting self position f start items.zipIdx, none⟩
    | "reduce_rev", [] => some do
      return ⟨← reduceItems setting self position f .unit items.zipIdx.reverse, none⟩
    | "reduce_rev", [start] => some do
      return ⟨← reduceItems setting self position f start items.zipIdx.reverse, none⟩
    | "for_each", [] => some do
      return .change (.list (← visitItems setting self position f 0 items))
    | "sort", [] => some do return .change (.list (← sortBy setting self position f [] items))
    | "dedup", [] => some do return .change (.list (← dedupBy setting self position f items))
    | "drain", [] => some do
      let (taken, others) ← partition setting self position f 0 items
      return ⟨.list taken, some (.list others)⟩
    | "retain", [] => some do
      let (taken, others) ← partition setting self position f 0 items
      return ⟨.list others, some (.list taken)⟩
    | _, _ => none
  | name, [.map members, .function f bound] =>
    let f : Pointer := ⟨f, bound⟩
    match name with
    | "filter" => some do
      return ⟨.map (← partitionMembers setting self position f members).1, none⟩
    | "drain" => some do
      let (taken, others) ← partitionMembers setting self position f members
      return ⟨.map taken, some (.map others)⟩
    | "retain" => some do
      let (taken, others) ← partitionMembers setting self position f members
      return ⟨.map others, some (.map taken)⟩
    | _ => none
  | _, _ => none

end

end Eval
end Rulebook.Script
