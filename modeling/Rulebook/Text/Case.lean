import Rulebook.Text.CaseTable

/-!
# Upper and lower case

The full case maps: a character maps to one or more characters, so that the sharp s becomes two
letters in upper case.
-/

namespace Rulebook.Text

/-- The first run, searched between the positions `lo` and `hi`, that ends at or after `n`. -/
def findRun (runs : Array (Nat × Nat × Nat × Int)) (n lo hi : Nat) :
    Option (Nat × Nat × Nat × Int) :=
  if lo < hi then
    let mid := (lo + hi) / 2
    match runs[mid]? with
    | some run => if run.2.1 < n then findRun runs n (mid + 1) hi else findRun runs n lo mid
    | none => none
  else runs[lo]?
termination_by hi - lo

/-- The image of a code point under a table of runs. -/
def shiftBy (runs : Array (Nat × Nat × Nat × Int)) (n : Nat) : Nat :=
  match findRun runs n 0 runs.size with
  | some (first, _, step, shift) =>
    if first ≤ n ∧ (n - first) % step = 0 then ((n : Int) + shift).toNat else n
  | none => n

/-- The single-character upper-case form, or the character itself. -/
def upperChar (c : Char) : Char :=
  if c.toNat < 128 then c.toUpper else Char.ofNat (shiftBy upperRuns c.toNat)

/-- The single-character lower-case form, or the character itself. -/
def lowerChar (c : Char) : Char :=
  if c.toNat < 128 then c.toLower else Char.ofNat (shiftBy lowerRuns c.toNat)

/-- The full upper-case form of a character. -/
def upper (c : Char) : List Char :=
  match upperExpansions.lookup c.toNat with
  | some image => image.map Char.ofNat
  | none => [upperChar c]

/-- The full lower-case form of a character. -/
def lower (c : Char) : List Char :=
  match lowerExpansions.lookup c.toNat with
  | some image => image.map Char.ofNat
  | none => [lowerChar c]

/-- The text in upper case. -/
def toUpper (s : String) : String := String.ofList (s.toList.flatMap upper)

/-- The text in lower case. -/
def toLower (s : String) : String := String.ofList (s.toList.flatMap lower)

end Rulebook.Text
