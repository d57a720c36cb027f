import Rulebook.Pattern.Basic

/-!
# Searching a text

A pattern turns the set of places where it may begin into the set of places where it may end. Places
are counted from the start of the text, and a set of places is an increasing list.
-/

namespace Rulebook.Pattern

/-- The union of two increasing lists. -/
def merge : List Nat → List Nat → List Nat
  | [], bs => bs
  | as, [] => as
  | a :: as, b :: bs =>
    if a < b then a :: merge as (b :: bs)
    else if b < a then b :: merge (a :: as) bs
    else a :: merge as bs
termination_by as bs => as.length + bs.length

/-- The elements of the first increasing list that are not in the second one. -/
def minus : List Nat → List Nat → List Nat
  | [], _ => []
  | as, [] => as
  | a :: as, b :: bs =>
    if a < b then a :: minus as (b :: bs)
    else if b < a then minus (a :: as) bs
    else minus as bs
termination_by as bs => as.length + bs.length

/-- All places reached from `places` by any number of steps, of which `fresh` are the ones from
where no step was made yet; `fuel` bounds the number of rounds. -/
def closure (step : List Nat → List Nat) : (fuel : Nat) → (fresh places : List Nat) → List Nat
  | 0, _, places => places
  | fuel + 1, fresh, places =>
    match minus (step fresh) places with
    | [] => places
    | found => closure step fuel found (merge places found)

/-- The places reached by exactly `n` steps. Once a step changes nothing, no later one does. -/
def exactly (step : List Nat → List Nat) : (n : Nat) → List Nat → List Nat
  | 0, places => places
  | n + 1, places =>
    let reached := step places
    if reached = places then places else exactly step n reached

/-- The places where the pattern may end when it begins at one of `places`. -/
def ends (text : Array Char) : Pattern → List Nat → List Nat
  | empty, places => places
  | chars set, places => places.filterMap fun i =>
    match text[i]? with
    | some c => if set.mem c then some (i + 1) else none
    | none => none
  | anchor a, places => places.filter fun i =>
    a.holds (if i = 0 then none else text[i - 1]?) text[i]?
  | seq a b, places => ends text b (ends text a places)
  | alt a b, places => merge (ends text a places) (ends text b places)
  | times a least none, places =>
    let start := exactly (ends text a) least places
    closure (ends text a) (text.size + 1) start start
  | times a least (some most), places =>
    let start := exactly (ends text a) least places
    closure (ends text a) (most - least) start start

/-- Whether some stretch of the text matches the pattern. -/
def foundIn (pattern : Pattern) (text : String) : Bool :=
  let chars := text.toList.toArray
  !(ends chars pattern (List.range (chars.size + 1))).isEmpty

end Rulebook.Pattern
