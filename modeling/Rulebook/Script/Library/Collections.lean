import Rulebook.Script.Library.Texts
import Rulebook.Script.Exchange

/-!
# Functions on lists, maps and bytes

Functions that change a collection change the variable that holds it. An index that denotes no item
is passed over in silence.
-/

namespace Rulebook.Script.Library

/-- The items without those that equal their neighbour before them. -/
def withoutRepeats : List Datum → List Datum
  | [] => []
  | [a] => [a]
  | a :: b :: rest =>
    if a.equal b then withoutRepeats (a :: rest) else a :: withoutRepeats (b :: rest)
termination_by items => items.length

/-- The functions on lists that change nothing. -/
def listFunctions (name : String) (arguments : List Datum) : Answer Datum :=
  match name, arguments with
  | "len", [.list items] => some (.ok (.ofNat items.length))
  | "is_empty", [.list items] => some (.ok (.bool items.isEmpty))
  | "contains", [.list items, item] => some (.ok (.bool (items.any (Datum.equal item))))
  | "index_of", [.list _, .function _ _] => none
  | "index_of", [.list items, item] =>
    some (.ok (placeValue (items.findIdx? (Datum.equal item))))
  | "index_of", [.list items, item, .int start] =>
    let first := nearestPlace items.length start.toInt
    some (.ok (placeValue (((items.drop first).findIdx? (Datum.equal item)).map (first + ·))))
  | "extract", [.list items, .int start, .int count] =>
    some (.ok (.list (slice items start.toInt count.toInt)))
  | "extract", [.list items, .int start] =>
    some (.ok (.list (slice items start.toInt items.length)))
  | "extract", [.list items, .range a b closed] =>
    let (start, count) := rangeStretch a b closed
    some (.ok (.list (slice items start count)))
  | "get", [.list items, .int index] =>
    some (.ok (((placeOf? items.length index.toInt).bind (items[·]?)).getD .unit))
  | "contains", [.range a b closed, .int n] =>
    some (.ok (.bool (a ≤ n && (if closed then n ≤ b else n < b))))
  | "is_empty", [.range a b closed] => some (.ok (.bool (if closed then b < a else b ≤ a)))
  | _, _ => none

/-- The items with one more at the place that an index denotes. -/
def inserted (items : List Datum) (index : Int64) (item : Datum) : List Datum :=
  let i := nearestPlace items.length index.toInt
  items.take i ++ item :: items.drop i

/-- The items with a stretch of them taken out, and that stretch. -/
def takenOut (items : List Datum) (start count : Int) : List Datum × List Datum :=
  let (first, number) := stretch items.length start count
  (items.take first ++ items.drop (first + number), (items.drop first).take number)

/-- The functions that change a list. -/
def listChanges (name : String) (arguments : List Datum) : Answer Reply :=
  match name, arguments with
  | "push", [.list items, item] => some (.ok (.change (.list (items ++ [item]))))
  | "append", [.list items, .list more] => some (.ok (.change (.list (items ++ more))))
  | "insert", [.list items, .int index, item] =>
    some (.ok (.change (.list (inserted items index item))))
  | "pop", [.list items] =>
    some (.ok ⟨items.getLast?.getD .unit, some (.list items.dropLast)⟩)
  | "shift", [.list items] => some (.ok ⟨items.head?.getD .unit, some (.list (items.drop 1))⟩)
  | "remove", [.list items, .int index] =>
    some (.ok (match placeOf? items.length index.toInt with
      | some i => ⟨items[i]?.getD .unit, some (.list (items.eraseIdx i))⟩
      | none => ⟨.unit, none⟩))
  | "clear", [.list _] => some (.ok (.change (.list [])))
  | "truncate", [.list items, .int n] =>
    some (.ok (.change (.list (items.take n.toInt.toNat))))
  | "chop", [.list items, .int n] =>
    some (.ok (.change (.list (items.drop (items.length - n.toInt.toNat)))))
  | "reverse", [.list items] => some (.ok (.change (.list items.reverse)))
  | "dedup", [.list items] => some (.ok (.change (.list (withoutRepeats items))))
  | "pad", [.list items, .int n, item] =>
    some (.ok (.change (.list
      (items ++ List.replicate (n.toInt - items.length).toNat item))))
  | "set", [.list items, .int index, item] =>
    some (.ok (match placeOf? items.length index.toInt with
      | some i => .change (.list (items.set i item))
      | none => ⟨.unit, none⟩))
  | "drain", [.list items, .int start, .int count] =>
    let (kept, taken) := takenOut items start.toInt count.toInt
    some (.ok ⟨.list taken, some (.list kept)⟩)
  | "drain", [.list items, .range a b closed] =>
    let (start, count) := rangeStretch a b closed
    let (kept, taken) := takenOut items start count
    some (.ok ⟨.list taken, some (.list kept)⟩)
  | "retain", [.list items, .int start, .int count] =>
    let (dropped, kept) := takenOut items start.toInt count.toInt
    some (.ok ⟨.list dropped, some (.list kept)⟩)
  | "retain", [.list items, .range a b closed] =>
    let (start, count) := rangeStretch a b closed
    let (dropped, kept) := takenOut items start count
    some (.ok ⟨.list dropped, some (.list kept)⟩)
  | "split", [.list items, .int index] =>
    let i := nearestPlace items.length index.toInt
    some (.ok ⟨.list (items.drop i), some (.list (items.take i))⟩)
  | "splice", [.list items, .int start, .int count, .list more] =>
    let (first, number) := stretch items.length start.toInt count.toInt
    some (.ok (.change (.list (items.take first ++ more ++ items.drop (first + number)))))
  | "splice", [.list items, .range a b closed, .list more] =>
    let (start, count) := rangeStretch a b closed
    let (first, number) := stretch items.length start count
    some (.ok (.change (.list (items.take first ++ more ++ items.drop (first + number)))))
  | _, _ => none

/-- The functions on maps. -/
def mapFunctions (name : String) (arguments : List Datum) : Answer Reply :=
  match name, arguments with
  | "len", [.map members] => some (.ok ⟨.ofNat members.length, none⟩)
  | "is_empty", [.map members] => some (.ok ⟨.bool members.isEmpty, none⟩)
  | "contains", [.map members, .text name] => some (.ok ⟨.bool (Fields.has members name), none⟩)
  | "keys", [.map members] => some (.ok ⟨.ofTexts (Fields.names members), none⟩)
  | "values", [.map members] => some (.ok ⟨.list (members.map (·.2)), none⟩)
  | "get", [.map members, .text name] =>
    some (.ok ⟨(Fields.get? members name).getD .unit, none⟩)
  | "set", [.map members, .text name, value] =>
    some (.ok (.change (.map (Fields.putSorted members name value))))
  | "remove", [.map members, .text name] =>
    some (.ok (match Fields.get? members name with
      | some value => ⟨value, some (.map (Fields.erase members name))⟩
      | none => ⟨.unit, none⟩))
  | "clear", [.map _] => some (.ok (.change (.map [])))
  | "mixin", [.map members, .map more] =>
    some (.ok (.change (.map (Arithmetic.union members more))))
  | "fill_with", [.map members, .map more] =>
    some (.ok (.change (.map (Arithmetic.union more members))))
  | "to_json", [.map members] => some (.ok ⟨.text (Datum.map members).toJson.compact, none⟩)
  | _, _ => none

/-- The functions on bytes. -/
def byteFunctions (name : String) (arguments : List Datum) : Answer Reply :=
  match name, arguments with
  | "blob", [] => some (.ok ⟨.bytes [], none⟩)
  | "blob", [.int n] => some (.ok ⟨.bytes (List.replicate n.toInt.toNat 0), none⟩)
  | "blob", [.int n, .int value] =>
    some (.ok ⟨.bytes (List.replicate n.toInt.toNat value.toUInt64.toUInt8), none⟩)
  | "len", [.bytes bs] => some (.ok ⟨.ofNat bs.length, none⟩)
  | "is_empty", [.bytes bs] => some (.ok ⟨.bool bs.isEmpty, none⟩)
  | "push", [.bytes bs, .int value] =>
    some (.ok (.change (.bytes (bs ++ [value.toUInt64.toUInt8]))))
  | "contains", [.bytes bs, .int value] =>
    some (.ok ⟨.bool (bs.contains value.toUInt64.toUInt8), none⟩)
  | "to_array", [.bytes bs] =>
    some (.ok ⟨.list (bs.map fun b => .int (Int64.ofNat b.toNat)), none⟩)
  | _, _ => none

end Rulebook.Script.Library
