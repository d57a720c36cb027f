import Rulebook.Yaml.Reader
import Rulebook.Value.Json

/-!
# What YAML nodes stand for

A node stands for a value if its tags are those of the core schema and its keys are scalars, whose
texts become names. It has a JSON form under other conditions: no mapping may have a key twice and
integers have at most 64 bits, but a tag of the document's own becomes an object with one member.
-/

namespace Rulebook.Yaml

/-- The greatest number of collections around a node. -/
def maxDepth : Nat := 128

/-- The number that an integer arrives as. -/
def integerNumber (n : Int) : Number :=
  if 0 ≤ n ∧ n < 0x10000000000000000 then .word64 (UInt64.ofNat n.toNat)
  else if -0x8000000000000000 ≤ n ∧ n < 0 then .int64 (Int64.ofInt n)
  else .wide n

/-- The value that the meaning of a scalar stands for. -/
def Scalar.toValue : Scalar → Value
  | null => .null
  | bool b => .bool b
  | integer n => .number (integerNumber n)
  | real x => .number (.double x)
  | text s => .text s

namespace Node

mutual

/-- The value that a node inside at most `depth` more collections stands for. -/
def toValueAt (depth : Nat) : Node → Option Value
  | scalar tag plain text =>
    if (localTag? tag).isSome then none else (resolve tag plain text).map Scalar.toValue
  | sequence tag items =>
    if (localTag? tag).isSome || depth == 0 then none
    else (toValuesAt (depth - 1) items).map .list
  | mapping tag pairs =>
    if (localTag? tag).isSome || depth == 0 then none
    else (toFieldsAt (depth - 1) pairs).map fun fields => .record (Fields.ofPairs fields)

/-- The values that nodes stand for. -/
def toValuesAt (depth : Nat) : List Node → Option (List Value)
  | [] => some []
  | item :: rest => do
    let item ← toValueAt depth item
    let rest ← toValuesAt depth rest
    return item :: rest

/-- The fields that the pairs of a mapping stand for. -/
def toFieldsAt (depth : Nat) : List (Node × Node) → Option (List (String × Value))
  | [] => some []
  | (key, value) :: rest => do
    let name ← match key with
      | scalar _ _ text => some text
      | _ => none
    let value ← toValueAt depth value
    let rest ← toFieldsAt depth rest
    return (name, value) :: rest

end

/-- The value that a node stands for. -/
def toValue (node : Node) : Option Value := toValueAt maxDepth node

end Node

/-- Equality of the meanings of scalars. -/
def Scalar.same : Scalar → Scalar → Bool
  | null, null => true
  | bool a, bool b => a == b
  | integer a, integer b => a == b
  | real a, real b => a == b || (a.isNaN && b.isNaN)
  | text a, text b => a == b
  | _, _ => false

/-- A node whose scalars have their meanings. -/
inductive Tree where
  | scalar (meaning : Scalar)
  | sequence (items : List Tree)
  | mapping (pairs : List (Tree × Tree))
  | tagged (name : String) (inner : Tree)

namespace Tree

mutual

/-- Equality of trees. The order of the pairs of a mapping does not matter. -/
def same : Tree → Tree → Bool
  | scalar a, scalar b => a.same b
  | sequence a, sequence b => sameItems a b
  | mapping a, mapping b => a.length == b.length && samePairs a b
  | tagged m a, tagged n b => m == n && same a b
  | _, _ => false

/-- Equality of lists of trees. -/
def sameItems : List Tree → List Tree → Bool
  | [], [] => true
  | a :: as, b :: bs => same a b && sameItems as bs
  | _, _ => false

/-- Whether every pair on the left has an equal one on the right. -/
def samePairs : List (Tree × Tree) → List (Tree × Tree) → Bool
  | [], _ => true
  | (key, value) :: rest, pairs =>
    (pairs.any fun (otherKey, otherValue) => same key otherKey && same value otherValue) &&
      samePairs rest pairs

end

/-- Wraps a tree in a tag, if there is one. -/
def tag (name : Option String) (inner : Tree) : Tree :=
  match name with
  | some name => tagged name inner
  | none => inner

mutual

/-- The tree of a node inside at most `depth` more collections. A tag of the document's own leaves
the scalar below it untagged. -/
def ofNodeAt (depth : Nat) : Node → Option Tree
  | .scalar nodeTag plain text => do
    let name := localTag? nodeTag
    let meaning ← resolve (if name.isSome then none else nodeTag) plain text
    match meaning with
    | .integer n => if -0x8000000000000000 ≤ n ∧ n < 0x10000000000000000 then return tag name (scalar meaning) else none
    | _ => return tag name (scalar meaning)
  | .sequence nodeTag items =>
    if depth = 0 then none
    else (ofNodesAt (depth - 1) items).map fun items => tag (localTag? nodeTag) (sequence items)
  | .mapping nodeTag pairs =>
    if depth = 0 then none
    else (ofPairsAt (depth - 1) [] pairs).map fun pairs => tag (localTag? nodeTag) (mapping pairs)

/-- The trees of nodes. -/
def ofNodesAt (depth : Nat) : List Node → Option (List Tree)
  | [] => some []
  | item :: rest => do
    let item ← ofNodeAt depth item
    let rest ← ofNodesAt depth rest
    return item :: rest

/-- The trees of the pairs of a mapping after the pairs `before`, which are in reverse. No key may
occur twice. -/
def ofPairsAt (depth : Nat) (before : List (Tree × Tree)) :
    List (Node × Node) → Option (List (Tree × Tree))
  | [] => some before.reverse
  | (key, value) :: rest => do
    let key ← ofNodeAt depth key
    if before.any fun (other, _) => same key other then none
    let value ← ofNodeAt depth value
    ofPairsAt depth ((key, value) :: before) rest

end

/-- The tree of a node. -/
def ofNode? (node : Node) : Option Tree := ofNodeAt maxDepth node

/-- The name that a key becomes in a JSON object. -/
def memberName : Tree → Option String
  | scalar (.text s) => some s
  | scalar (.integer n) => some (toString n)
  | scalar (.bool b) => some (if b then "true" else "false")
  | scalar (.real x) => if x.isNaN || x.isInf then none else some (Layout.document.render x)
  | _ => none

mutual

/-- The JSON form of a tree. -/
def toJson : Tree → Option Json
  | scalar .null => some .null
  | scalar (.bool b) => some (.bool b)
  | scalar (.integer n) => some (.integer n)
  | scalar (.real x) => some (if x.isNaN || x.isInf then .null else .real x)
  | scalar (.text s) => some (.string s)
  | sequence items => (toJsonItems items).map .array
  | mapping pairs => (toJsonMembers pairs).map .object
  | tagged name inner => (toJson inner).map fun inner => .object [("!" ++ name, inner)]

/-- The JSON forms of trees. -/
def toJsonItems : List Tree → Option (List Json)
  | [] => some []
  | item :: rest => do
    let item ← toJson item
    let rest ← toJsonItems rest
    return item :: rest

/-- The members that the pairs of a mapping become. -/
def toJsonMembers : List (Tree × Tree) → Option (List (String × Json))
  | [] => some []
  | (key, value) :: rest => do
    let name ← memberName key
    let value ← toJson value
    let rest ← toJsonMembers rest
    return (name, value) :: rest

end

/-- The tree under a name in a mapping, tags aside. -/
def member? (name : String) : Tree → Option Tree
  | tagged _ inner => member? name inner
  | mapping pairs =>
    (pairs.find? fun (key, _) => key.same (scalar (.text name))).map (·.2)
  | _ => none

end Tree
end Rulebook.Yaml
