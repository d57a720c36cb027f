import Rulebook.Output
import Rulebook.Value.Inline

/-!
# Actions

An action is an effect that rules invoke by name. It receives the document and the input and answers
with the next document, or refuses with a message.

* `Action.log` writes the document to the log and leaves it as it is;
* `Action.set` writes a fixed value at a path, by way of `Value.setPath`;
* `Value.atPath` reads what stands at a path.
-/

namespace Rulebook

/-- The refusal of an action. -/
structure ActionError where
  message : String
  deriving Repr, DecidableEq

/-- What an action answers. -/
structure ActionReply where
  output : Output := .empty
  /-- The next document, a refusal, or a breakdown. -/
  result : Except Fault (Except ActionError Value)

/-- An effect that rules invoke by name. -/
structure Action where
  run : (document input : Value) → ActionReply

namespace Value

/-- The record that a value is, or the empty one. -/
def asRecord : Value → Fields Value
  | record fields => fields
  | _ => []

/-- The value with `value` at a path of names. Whatever stands in the way of the path and is not a
record is replaced by one. The names are looked up from outside in, and looking up a name in a value
without members is a fault. -/
def setPath : (target : Value) → (path : List String) → (value : Value) → Except Fault Value
  | _, [], value => .ok value
  | target, name :: rest, value => do
    let found := (← target.member name).getD null
    let child := if rest.isEmpty || found.isRecord then found else record []
    let child ← setPath child rest value
    return record (target.asRecord.put name child)

/-- The value at a path of names, through records only. -/
def atPath : Value → (path : List String) → Option Value
  | value, [] => some value
  | record fields, name :: rest => (Fields.get? fields name).bind (atPath · rest)
  | _, _ :: _ => none

end Value

namespace Action

/-- The number of characters of a document that the log shows unless another number is set. -/
def defaultLimit : Nat := 500

/-- The first `limit` characters of a text, with dots if something is left out. -/
def truncate (limit : Nat) (text : String) : String :=
  let chars := text.toList
  if limit < chars.length then String.ofList (chars.take limit) ++ "..." else text

/-- The action that logs the document under a label. -/
def log (label : String := "document") (limit : Nat := defaultLimit) : Action where
  run document _ :=
    { output := .log .info "docrule_engine::action"
        (label ++ ": " ++ truncate limit document.inlineForm)
      result := .ok (.ok document) }

/-- The names of a dotted path. -/
def segments (path : String) : List String := (path.toList.splitOn '.').map String.ofList

/-- The action that writes a value at a dotted path. -/
def set (path : String) (value : Value) : Action where
  run document _ :=
    { result :=
        if (segments path).any String.isEmpty then
          .ok (.error ⟨"path segments must not be empty"⟩)
        else (document.setPath (segments path) value).map .ok }

end Action
end Rulebook
