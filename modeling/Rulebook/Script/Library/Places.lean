import Rulebook.Script.Datum

/-!
# Places in lists and texts

A place counted from the end is negative. A stretch is given by its first place and its length, or
by a range of places; what lies outside is left out.
-/

namespace Rulebook.Script.Library

/-- The place that an index denotes among `length` places, if it denotes one. -/
def placeOf? (length : Nat) (index : Int) : Option Nat :=
  if 0 ≤ index then if index < length then some index.toNat else none
  else if -index ≤ length then some (length - (-index).toNat) else none

/-- A place that an index denotes is a place. -/
theorem lt_of_placeOf?_eq_some {length i : Nat} {index : Int} (h : placeOf? length index = some i) :
    i < length := by
  unfold placeOf? at h
  split at h
  · split at h
    · simp at h; omega
    · simp at h
  · split at h
    · simp at h; omega
    · simp at h

/-- The place that an index denotes among `length` places; the nearest one if it denotes none. -/
def nearestPlace (length : Nat) (index : Int) : Nat :=
  if 0 ≤ index then min index.toNat length else length - min (-index).toNat length

theorem nearestPlace_le (length : Nat) (index : Int) : nearestPlace length index ≤ length := by
  unfold nearestPlace; split <;> omega

/-- The start and the length of a stretch among `length` places. -/
def stretch (length : Nat) (start count : Int) : Nat × Nat :=
  let first := nearestPlace length start
  (first, min count.toNat (length - first))

/-- A stretch ends inside of the places. -/
theorem stretch_le (length : Nat) (start count : Int) :
    (stretch length start count).1 + (stretch length start count).2 ≤ length := by
  have := nearestPlace_le length start
  simp only [stretch]
  omega

/-- The start and the length of a range of places as integers. -/
def rangeStretch (first last : Int64) (closed : Bool) : Int × Int :=
  let start : Int := max first.toInt 0
  let stop : Int := max last.toInt start
  (start, stop - start + (if closed then 1 else 0))

/-- The items of a stretch. -/
def slice {α : Type} (items : List α) (start count : Int) : List α :=
  let (first, number) := stretch items.length start count
  (items.drop first).take number

end Rulebook.Script.Library
