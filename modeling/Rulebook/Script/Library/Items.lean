import Rulebook.Script.Problem
import Rulebook.Script.Library.Places

/-!
# Items of values

What stands at an index of a value, and the value with something else there. Lists, texts and bytes
are indexed by places, texts also by ranges of places, maps by names and integers by their bits. A
name that a map lacks stands for the unit, and can be given a value. `Datum.items?` says what a loop
over a value goes through.
-/

namespace Rulebook.Script

namespace Datum

/-- The place that an index denotes. -/
def placeAt (length : Nat) (index : Datum) (outside : Int → Problem) : Except Problem Nat :=
  match index with
  | int n =>
    match Library.placeOf? length n.toInt with
    | some i => .ok i
    | none => .error (outside n.toInt)
  | index => .error (.kind "i64" index.typeName)

/-- The stretch of a text of `length` characters that a range denotes: its first place and how many
characters it has at most. -/
def textRange (length : Nat) (first last : Int64) (closed : Bool) : Except Problem (Nat × Nat) := do
  let bound (n : Int) : Except Problem Nat :=
    if 0 ≤ n then .ok n.toNat
    else
      match Library.placeOf? length n with
      | some i => .ok i
      | none => .error (.textBounds length n)
  let start ← bound first.toInt
  let stop ← bound last.toInt
  return (start, stop + (if closed then 1 else 0) - start)

/-- The bit of an integer at a place. -/
def bitAt (n : Int64) (i : Nat) : Bool := n.toUInt64.toNat.testBit i

/-- The integer with another bit at a place. -/
def withBit (n : Int64) (i : Nat) (b : Bool) : Int64 :=
  let mask : UInt64 := 1 <<< UInt64.ofNat i
  (if b then n.toUInt64 ||| mask else n.toUInt64 &&& ~~~mask).toInt64

/-- What stands at an index. -/
def itemAt (value index : Datum) : Except Problem Datum :=
  match value with
  | list items => do
    let i ← placeAt items.length index (.listBounds items.length)
    return items[i]?.getD unit
  | bytes bs => do
    let i ← placeAt bs.length index (.listBounds bs.length)
    return .ofNat (bs[i]?.getD 0).toNat
  | text s =>
    match index with
    | range first last closed => do
      let (start, count) ← textRange s.length first last closed
      return text (String.ofList ((s.toList.drop start).take count))
    | index => do
      let i ← placeAt s.length index (.textBounds s.length)
      return match s.toList[i]? with
        | some c => char c
        | none => unit
  | int n => do
    let i ← placeAt 64 index .bitBounds
    return bool (bitAt n i)
  | map members =>
    match index with
    | text name => .ok ((Fields.get? members name).getD unit)
    | index => .error (.kind "string" index.typeName)
  | value => .error (.notIndexed (value.typeName ++ " [" ++ index.typeName ++ "]"))

/-- The value with an item at an index. -/
def withItem (value index item : Datum) : Except Problem Datum :=
  match value, item with
  | list items, item => do
    let i ← placeAt items.length index (.listBounds items.length)
    return list (items.set i item)
  | bytes bs, int n => do
    let i ← placeAt bs.length index (.listBounds bs.length)
    return bytes (bs.set i n.toUInt64.toUInt8)
  | bytes _, item => .error (.kind "i64" item.typeName)
  | text s, item =>
    match index, item with
    | range first last closed, item => do
      let (start, count) ← textRange s.length first last closed
      let chars := s.toList
      return text (String.ofList
        (chars.take start ++ item.display.toList ++ chars.drop (start + count)))
    | index, char c => do
      let i ← placeAt s.length index (.textBounds s.length)
      return text (String.ofList (s.toList.set i c))
    | _, item => .error (.kind "char" item.typeName)
  | int n, bool b => do
    let i ← placeAt 64 index .bitBounds
    return int (withBit n i b)
  | int _, item => .error (.kind "bool" item.typeName)
  | map members, item =>
    match index with
    | text name => .ok (map (Fields.putSorted members name item))
    | index => .error (.kind "string" index.typeName)
  | value, _ => .error (.notIndexed (value.typeName ++ " [" ++ index.typeName ++ "]"))

/-- Whether something stands at an index, so that it can be changed there. -/
def hasItem (value index : Datum) : Bool :=
  match value, index with
  | map members, text name => Fields.has members name
  | value, index => (value.itemAt index).isOk

/-- The number of steps from one integer up or down to another one, which is left out. -/
def stepCount (first last step : Int) : Nat :=
  if 0 < step then ((last - first + step - 1) / step).toNat
  else ((first - last - step - 1) / -step).toNat

/-- The number of the items that a loop goes through, and the item at each place. -/
def items? : Datum → Option (Nat × (Nat → Datum))
  | list items =>
    let items := items.toArray
    some (items.size, fun i => items[i]?.getD unit)
  | text s =>
    let chars := s.toList.toArray
    some (chars.size, fun i => (chars[i]?.map char).getD unit)
  | letters chars =>
    let chars := chars.toArray
    some (chars.size, fun i => (chars[i]?.map char).getD unit)
  | bytes bs =>
    let bs := bs.toArray
    some (bs.size, fun i => .ofNat (bs[i]?.getD 0).toNat)
  | range first last closed =>
    some ((last.toInt - first.toInt + (if closed then 1 else 0)).toNat, fun i =>
      int (Int64.ofInt (first.toInt + i)))
  | steps first last step =>
    some (stepCount first.toInt last.toInt step.toInt, fun i =>
      int (Int64.ofInt (first.toInt + i * step.toInt)))
  | _ => none

end Datum
end Rulebook.Script
