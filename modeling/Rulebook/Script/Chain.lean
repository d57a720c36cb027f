import Rulebook.Script.HigherOrder
import Rulebook.Script.Library.Items

/-!
# Chains

A chain follows its links from a root into members, items and the results of methods. What it
reaches stands at a place: the value there, and a way to put another value there, which changes
everything around it up to the variable at the root. The arguments of all links are evaluated before
the root.
-/

namespace Rulebook.Script

/-- A link with the values of its arguments. -/
inductive Hop where
  | member (name : String) (optional : Bool) (position : Position)
  | method (name : String) (arguments : List Datum) (optional : Bool) (position : Position)
  | item (index : Datum) (optional : Bool) (position : Position)

/-- Where a value stands. -/
structure Place where
  value : Datum
  /-- Whether the value belongs to a constant, so that methods must not change it. -/
  constant : Bool := false
  /-- Puts another value there. -/
  put : Datum → Eval Unit := fun _ => pure ()

/-- Whether a link ends the chain at a value. -/
def Hop.stopsAt (hop : Hop) (value : Datum) : Bool :=
  value.isUnit &&
    match hop with
    | member _ optional _ => optional
    | method _ _ optional _ => optional
    | item _ optional _ => optional

namespace Place

/-- The place of what stands at an index. What is not there cannot be changed there. -/
def itemPlace (place : Place) (index : Datum) (position : Position) : Eval Place := do
  let value ← Eval.ofResult position (place.value.itemAt index)
  return {
    value
    put := fun item =>
      if place.value.hasItem index then do
        place.put (← Eval.ofResult position (place.value.withItem index item))
      else pure () }

end Place

namespace Eval

section

variable (setting : Setting) (self : Runner)

/-- A link with the values of its arguments. -/
def hop : Link → Eval Hop
  | .member name optional position => return .member name optional position
  | .method name arguments optional position => do
    return .method name (← collect (fun e => self (.expr e)) arguments) optional position
  | .item index optional position => do return .item (← self (.expr index)) optional position

/-- The variable of a name. -/
def variableAt (name : String) (position : Option Position) : Eval Variable := do
  match ← findVariable name with
  | some v => return v
  | none => fail (.unknownName name) position

/-- The value that the method under way was called on. -/
def subjectAt (position : Option Position) : Eval Datum := do
  match (← get).subject with
  | some value => return value
  | none => fail .noSubject position

/-- The place of the root of a chain. -/
def root : Expr → Eval Place
  | .name name position => do
    let v ← variableAt name position
    return { value := ← content v.value, constant := v.constant, put := store v }
  | .subject position => do
    return { value := ← subjectAt position
             put := fun value => modify fun s => { s with subject := some value } }
  | e => do return { value := ← self (.expr e) }

/-- Calls a function that the script does not declare, on the value at a place. -/
def callBuiltIn (name : String) (arguments : List Datum) (place : Place) (position : Position) :
    Eval Datum := do
  let reply ← match higherOrder setting self (some position) name (place.value :: arguments) with
    | some reply => reply
    | none => callNative setting name (place.value :: arguments) position
  if place.constant && Library.isChanging name then fail (.constantSubject name) position
  reply.changed.forM place.put
  return reply.value

/-- Calls a function with the value at a place as its subject. -/
def callOn (name : String) (arguments : List Datum) (place : Place) (position : Position) :
    Eval Datum := do
  match setting.function? name arguments.length with
  | some f =>
    let (outcome, after) ← callFunction self f arguments (some place.value) position
    after.forM place.put
    ofOutcome outcome
  | none => callBuiltIn setting self name (← collect content arguments) place position

/-- The function that the value of a member of a map is. -/
def memberFunction? (value : Datum) (name : String) : Option Pointer :=
  match value with
  | .map members =>
    match Fields.get? members name with
    | some (.function f bound) => some ⟨f, bound⟩
    | _ => none
  | _ => none

/-- Calls a method on the value at a place. -/
def callMethod (name : String) (arguments : List Datum) (place : Place) (position : Position) :
    Eval Datum := do
  match name, place.value, arguments with
  | "call", .function f bound, arguments =>
    valueOf (callPointer setting self f (bound ++ arguments) none position)
  | "call", _, .function f bound :: arguments =>
    callOn setting self f (bound ++ arguments) place position
  | "call", _, argument :: _ => fail (.kind "Fn" argument.typeName) position
  | "call", value, [] => fail (.kind "Fn" value.typeName) position
  | "curry", .function f bound, arguments => return .function f (bound ++ arguments)
  | "curry", value, _ => fail (.kind "Fn" value.typeName) position
  | "is_shared", _, [] => return .bool false
  | name, value, arguments =>
    match memberFunction? value name with
    | some f => callOn setting self f.name (f.bound ++ arguments) place position
    | none => callOn setting self name arguments place position

/-- The place of a member. -/
def memberPlace (place : Place) (name : String) (position : Position) : Eval Place := do
  match place.value with
  | .map _ => place.itemPlace (.text name) position
  | value =>
    match Library.member value name with
    | some result => return { value := ← ofResult (some position) result }
    | none =>
      match (if name = "elapsed" then callHost setting name [value] else none) with
      | some value => return { value := ← value }
      | none => fail (.noMember name value.typeName) position

/-- The place that a link leads to. -/
def hopPlace (place : Place) : Hop → Eval Place
  | .member name _ position => memberPlace setting place name position
  | .method name arguments _ position => do
    return { value := ← callMethod setting self name arguments place position }
  | .item index _ position => place.itemPlace index position

/-- The place that a chain leads to; none if an optional link ends it. -/
def locate (place : Place) : List Hop → Eval (Option Place)
  | [] => return place
  | hop :: rest =>
    if hop.stopsAt place.value then return none
    else do locate (← hopPlace setting self place hop) rest

/-- The value that a chain leads to. -/
def follow (chainRoot : Expr) (links : List Link) : Eval Datum := do
  let hops ← collect (hop self) links
  match ← locate setting self (← root self chainRoot) hops with
  | some place => return place.value
  | none => return .unit

/-- Changes what stands at an index, which a map may lack. -/
def changeItem (place : Place) (index : Datum) (position : Position)
    (change : Datum → Eval Datum) : Eval Unit := do
  let old ← ofResult (some position) (place.value.itemAt index)
  if !place.value.hasItem index then
    place.put (← ofResult (some position) (place.value.withItem index .unit))
  let new ← change old
  place.put (← ofResult (some position) (place.value.withItem index new))

/-- Changes what the last link of a chain leads to. -/
def changeAt (chainRoot : Expr) (links : List Link) (change : Datum → Eval Datum) :
    Eval Unit := do
  let hops ← collect (hop self) links
  match ← locate setting self (← root self chainRoot) hops.dropLast, hops.getLast? with
  | some place, some hop =>
    if hop.stopsAt place.value then return ()
    match hop, place.value with
    | .member name _ position, .map _ => changeItem place (.text name) position change
    | .member name _ position, value => fail (.noMember name value.typeName) position
    | .item index _ position, _ => changeItem place index position change
    | .method _ _ _ _, _ => return ()
  | _, _ => return ()

end

end Eval
end Rulebook.Script
