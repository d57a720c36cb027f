import Rulebook.Decimal.Text

/-!
# YAML nodes

What a YAML text denotes before its scalars are given a meaning: scalars, sequences and mappings,
each with an optional tag. `Node.resolve` gives a scalar its meaning: a scalar without tag and
without quotes may be null, a truth value or a number, and every other one is a text.
-/

namespace Rulebook.Yaml

/-- A node. Aliases are replaced by the nodes they refer to. -/
inductive Node where
  /-- A scalar; `plain` when it stands without quotes. -/
  | scalar (tag : Option String) (plain : Bool) (text : String)
  | sequence (tag : Option String) (items : List Node)
  | mapping (tag : Option String) (pairs : List (Node × Node))
  deriving Inhabited

/-- The meaning of a scalar. -/
inductive Scalar where
  | null
  | bool (b : Bool)
  | integer (n : Int)
  | real (x : Float)
  | text (s : String)

/-- The meaning of the words for null. -/
def readNull? (s : String) : Option Scalar :=
  if s = "null" ∨ s = "Null" ∨ s = "NULL" ∨ s = "~" then some .null else none

/-- The meaning of the words for truth values. -/
def readBool? (s : String) : Option Scalar :=
  if s = "true" ∨ s = "True" ∨ s = "TRUE" then some (.bool true)
  else if s = "false" ∨ s = "False" ∨ s = "FALSE" then some (.bool false)
  else none

/-- The value of a digit of any base up to sixteen. -/
def digitIn? (base : Nat) (c : Char) : Option Nat :=
  let value :=
    if c.isDigit then some (c.toNat - '0'.toNat)
    else if 'a' ≤ c ∧ c ≤ 'f' then some (c.toNat - 'a'.toNat + 10)
    else if 'A' ≤ c ∧ c ≤ 'F' then some (c.toNat - 'A'.toNat + 10)
    else none
  value.filter (· < base)

/-- The number that digits of a base denote. -/
def readBase? (base : Nat) (digits : List Char) : Option Nat := do
  if digits.isEmpty then none
  let values ← digits.mapM (digitIn? base)
  return values.foldl (fun n d => base * n + d) 0

/-- Whether the text is a zero followed by digits, which is never a number. -/
def hasLeadingZero (s : List Char) : Bool :=
  match (Decimal.splitSign s).2 with
  | '0' :: c :: rest => (c :: rest).all Char.isDigit
  | _ => false

/-- The integer without sign that a text denotes, with a mark for its base if that is not ten. -/
def readMagnitude? (s : List Char) : Option Nat :=
  match s with
  | '0' :: 'x' :: digits => readBase? 16 digits
  | '0' :: 'o' :: digits => readBase? 8 digits
  | '0' :: 'b' :: digits => readBase? 2 digits
  | digits => readBase? 10 digits

/-- The integer that a text denotes, if it has at most 128 bits. -/
def readInteger? (s : List Char) : Option Int :=
  if hasLeadingZero s then none
  else
    match s with
    | '-' :: rest => do
      let n ← readMagnitude? rest
      if n ≤ 0x80000000000000000000000000000000 then return -(n : Int) else none
    | '+' :: rest => do
      let n ← readMagnitude? rest
      if n < 0x100000000000000000000000000000000 then return (n : Int) else none
    | rest => do
      let n ← readMagnitude? rest
      if n < 0x100000000000000000000000000000000 then return (n : Int) else none

/-- The double that a text denotes. A decimal beyond the range of doubles denotes none. -/
def readReal? (s : String) : Option Float :=
  let unsigned := match s.toList with
    | '+' :: rest => rest
    | rest => rest
  if s = "-.inf" ∨ s = "-.Inf" ∨ s = "-.INF" then some (-1.0 / 0.0)
  else if s = ".nan" ∨ s = ".NaN" ∨ s = ".NAN" then some (0.0 / 0.0)
  else if unsigned = ".inf".toList ∨ unsigned = ".Inf".toList ∨ unsigned = ".INF".toList then
    some (1.0 / 0.0)
  else
    match s.toList, unsigned with
    | '+' :: _, '+' :: _ => none
    | '+' :: _, '-' :: _ => none
    | _, _ => (Decimal.readFloat? unsigned).filter fun x => !(x.isInf || x.isNaN)

/-- The meaning of a plain scalar without tag. -/
def resolvePlain (s : String) : Scalar :=
  if s.isEmpty then .null
  else
    match readNull? s, readBool? s, readInteger? s.toList with
    | some meaning, _, _ => meaning
    | none, some meaning, _ => meaning
    | none, none, some n => .integer n
    | none, none, none =>
      if hasLeadingZero s.toList then .text s
      else
        match readReal? s with
        | some x => .real x
        | none => .text s

/-- The meaning of a scalar. A tag of the core schema asks for a meaning of its kind; every other
tag leaves a text as it is. -/
def resolve (tag : Option String) (plain : Bool) (s : String) : Option Scalar :=
  match tag with
  | none => some (if plain then resolvePlain s else .text s)
  | some "tag:yaml.org,2002:null" => readNull? s
  | some "tag:yaml.org,2002:bool" => readBool? s
  | some "tag:yaml.org,2002:int" => (readInteger? s.toList).map .integer
  | some "tag:yaml.org,2002:float" => (readReal? s).map .real
  | some _ => some (.text s)

/-- The name of a tag of the document's own, with its exclamation mark left out. -/
def localTag? (tag : Option String) : Option String :=
  match tag.map String.toList with
  | some ('!' :: []) => some "!"
  | some ('!' :: name) => some (String.ofList name)
  | _ => none

end Rulebook.Yaml
