import Rulebook.Action

/-!
# Registered actions

The actions that rules can invoke, each under one name, in the order of their names.
-/

namespace Rulebook

/-- Actions under their names, in increasing order of the names. -/
structure Registry where
  actions : Fields Action := []

namespace Registry

/-- The action under a name. -/
def get? (registry : Registry) (name : String) : Option Action := registry.actions.get? name

/-- Whether an action is registered under a name. -/
def contains (registry : Registry) (name : String) : Bool := registry.actions.has name

/-- The registered names in increasing order. -/
def names (registry : Registry) : List String := registry.actions.names

/-- The number of registered actions. -/
def size (registry : Registry) : Nat := registry.actions.length

/-- Whether no action is registered. -/
def isEmpty (registry : Registry) : Bool := registry.actions.isEmpty

/-- The registry with an action under a name. A registered action of that name is replaced, which is
logged. -/
def register (registry : Registry) (name : String) (action : Action) : Registry × Output :=
  (⟨registry.actions.putSorted name action⟩,
    if registry.contains name then
      .log .debug "docrule_engine::action" ("Action " ++ name ++ " replaced")
    else .empty)

/-- A registered name has its action, every other name has the action that it had. -/
theorem get?_register (registry : Registry) (name other : String) (action : Action) :
    (registry.register name action).1.get? other =
      if name = other then some action else registry.get? other :=
  Fields.get?_putSorted _ _ _ _

end Registry
end Rulebook
