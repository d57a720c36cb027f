import Rulebook.Engine.Basic

/-!
# Views of the document

A view reads the document of an engine as something that a caller works with.
-/

namespace Rulebook

namespace Json

/-- The 64-bit integer that a JSON value is. -/
def toInt64? : Json → Option Int64
  | integer n => if -0x8000000000000000 ≤ n ∧ n < 0x8000000000000000 then some (Int64.ofInt n) else none
  | _ => none

/-- The members of an object, all read in the same way. -/
def readMembers? {α : Type} (read : Json → Option α) : List (String × Json) → Option (Fields α)
  | [] => some []
  | (name, value) :: rest => do
    let a ← read value
    return (name, a) :: (← readMembers? read rest)

/-- The map that an object is, all of its members read in the same way. -/
def toFields? {α : Type} (read : Json → Option α) : Json → Option (Fields α)
  | object members => readMembers? read members
  | _ => none

/-- The value of the only field of a record: a member of an object, which may have others, or the
only item of a list. -/
def toField? {α : Type} (name : String) (read : Json → Option α) : Json → Option α
  | object members => (Fields.get? members name).bind read
  | array [item] => read item
  | _ => none

end Json

/-- A reading of documents. -/
structure View (α : Type) where
  read : Json → Except EngineError α

namespace View

/-- The view that reads documents of a form, and fails on the others. -/
def ofReader {α : Type} (read : Json → Option α) : View α where
  read json :=
    match read json with
    | some a => .ok a
    | none => .error .document

/-- The document of an engine through a view. -/
def document {α : Type} (view : View α) (engine : Engine) : Except EngineError α := do
  view.read (← engine.tree)

end View
end Rulebook
