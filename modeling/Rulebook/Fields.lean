/-!
# Named fields

A collection of values under distinct names, as an association list. `put` keeps the order in which
names first came, `putSorted` keeps the names in increasing order; names are compared by their code
points, which is also the order of their bytes. What `get?` finds after `put`, `putSorted` and
`erase` is said by `get?_put`, `get?_putSorted` and `get?_erase`.
-/

namespace Rulebook

/-- Values under names. -/
abbrev Fields (α : Type) := List (String × α)

namespace Fields

variable {α β : Type}

/-- The value under a name. -/
def get? : Fields α → String → Option α
  | [], _ => none
  | (k, v) :: rest, name => if k = name then some v else get? rest name

/-- Whether a name occurs. -/
def has (fields : Fields α) (name : String) : Bool := (fields.get? name).isSome

/-- The fields with `value` under `name`: in the place of an earlier value, or at the end. -/
def put : Fields α → String → α → Fields α
  | [], name, value => [(name, value)]
  | (k, v) :: rest, name, value =>
    if k = name then (k, value) :: rest else (k, v) :: put rest name value

/-- The fields with `value` under `name`, before the first greater name. -/
def putSorted : Fields α → String → α → Fields α
  | [], name, value => [(name, value)]
  | (k, v) :: rest, name, value =>
    if k = name then (k, value) :: rest
    else if name < k then (name, value) :: (k, v) :: rest
    else (k, v) :: putSorted rest name value

/-- The fields without a name. -/
def erase (fields : Fields α) (name : String) : Fields α := fields.filter (·.1 ≠ name)

/-- The names. -/
def names (fields : Fields α) : List String := fields.map (·.1)

/-- The fields in increasing order of their names. -/
def sort (fields : Fields α) : Fields α :=
  fields.foldl (fun sorted field => sorted.putSorted field.1 field.2) []

/-- The fields of a list of pairs in which a later pair replaces an earlier one of the same name. -/
def ofPairs (pairs : List (String × α)) : Fields α :=
  pairs.foldl (fun fields pair => fields.put pair.1 pair.2) []

@[simp]
theorem get?_nil (name : String) : get? ([] : Fields α) name = none := rfl

@[simp]
theorem get?_cons (k : String) (v : α) (rest : Fields α) (name : String) :
    get? ((k, v) :: rest) name = if k = name then some v else get? rest name := rfl

/-- A name that was put has its value, every other name has the value that it had. -/
theorem get?_put (fields : Fields α) (name other : String) (value : α) :
    get? (put fields name value) other =
      if name = other then some value else get? fields other := by
  induction fields with
  | nil => simp [put]
  | cons field rest ih =>
    obtain ⟨k, v⟩ := field
    by_cases h : k = name
    · subst h
      by_cases ho : k = other <;> simp [put, ho]
    · by_cases ho : k = other
      · subst ho
        simp [put, h, Ne.symm h]
      · simp [put, h, ho, ih]

/-- Putting a value in order of the names changes the same look-ups as putting it anywhere. -/
theorem get?_putSorted (fields : Fields α) (name other : String) (value : α) :
    get? (putSorted fields name value) other =
      if name = other then some value else get? fields other := by
  induction fields with
  | nil => simp [putSorted]
  | cons field rest ih =>
    obtain ⟨k, v⟩ := field
    by_cases h : k = name
    · subst h
      by_cases ho : k = other <;> simp [putSorted, ho]
    · by_cases hlt : name < k
      · simp [putSorted, h, hlt]
      · by_cases ho : k = other
        · subst ho
          simp [putSorted, h, hlt, Ne.symm h]
        · simp [putSorted, h, hlt, ho, ih]

/-- An erased name has no value, every other name has the value that it had. -/
theorem get?_erase (fields : Fields α) (name other : String) :
    get? (erase fields name) other = if name = other then none else get? fields other := by
  unfold erase
  induction fields with
  | nil => simp
  | cons field rest ih =>
    obtain ⟨k, v⟩ := field
    by_cases h : k = name
    · subst h
      simp only [List.filter_cons, ne_eq, not_true_eq_false, decide_false, Bool.false_eq_true,
        if_false, get?_cons]
      rw [ih]
      by_cases ho : k = other <;> simp [ho]
    · simp only [List.filter_cons, ne_eq, h, not_false_eq_true, decide_true, if_true, get?_cons]
      rw [ih]
      by_cases ho : k = other
      · subst ho
        simp [Ne.symm h]
      · simp [ho]

end Fields
end Rulebook
