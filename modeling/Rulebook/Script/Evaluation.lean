import Rulebook.Script.Syntax
import Rulebook.Script.Problem
import Rulebook.Registry
import Rulebook.Host

/-!
# Evaluations

An evaluation changes a state and ends with a value, or with a signal that says why there is none.
The state holds the variables in scope, the cells that anonymous functions share with them, and the
output so far; it outlives errors.
-/

namespace Rulebook.Script

/-- Why an evaluation ends without a value. -/
inductive Signal where
  | error (err : Error)
  | answered (value : Datum)
  | left (value : Datum)
  | next
  | exited (value : Datum)
  | fault (fault : Fault)
  /-- The steps allowed were not enough. -/
  | unfinished

/-- A variable in scope. -/
structure Variable where
  name : String
  value : Datum
  constant : Bool := false

/-- The state of an evaluation. -/
structure State where
  /-- The variables in scope, the innermost first. -/
  scope : List Variable := []
  /-- The value that a method was called on. -/
  subject : Option Datum := none
  /-- The contents of the shared cells. -/
  cells : List Datum := []
  /-- The number of function calls under way. -/
  calls : Nat := 0
  /-- How often the clock was read. -/
  readings : Nat := 0
  /-- The paths that modules were imported from, the last one first. -/
  fetched : List String := []
  output : Output := .empty

/-- What scripts may use. -/
structure Sandbox where
  /-- How much of the host is in reach. -/
  mode : SecurityMode
  actions : Registry

/-- What a run of a script may use: its own functions, its sandbox and the host. -/
structure Setting where
  functions : List Function
  sandbox : Sandbox
  host : Host

/-- An evaluation. -/
def Eval (α : Type) : Type := State → Except Signal α × State

namespace Eval

/-- The evaluation that ends with a value at once. -/
def pure {α : Type} (a : α) : Eval α := fun s => (.ok a, s)

/-- One evaluation after another. -/
def bind {α β : Type} (m : Eval α) (f : α → Eval β) : Eval β := fun s =>
  match m s with
  | (.ok a, s) => f a s
  | (.error signal, s) => (.error signal, s)

instance : Monad Eval where
  pure := pure
  bind := bind

instance {α : Type} : Inhabited (Eval α) := ⟨fun s => (.error .unfinished, s)⟩

/-- Ends with a signal. -/
def signal {α : Type} (signal : Signal) : Eval α := fun s => (.error signal, s)

/-- Ends with an error at a place. -/
def fail {α : Type} (problem : Problem) (position : Option Position) : Eval α :=
  signal (.error { problem, position })

/-- The state. -/
def get : Eval State := fun s => (.ok s, s)

/-- Changes the state. -/
def modify (f : State → State) : Eval Unit := fun s => (.ok (), f s)

/-- How an evaluation ends, as a value. -/
def outcome {α : Type} (m : Eval α) : Eval (Except Signal α) := fun s =>
  match m s with
  | (result, s) => (.ok result, s)

/-- Ends as the outcome says. -/
def ofOutcome {α : Type} (result : Except Signal α) : Eval α := fun s => (result, s)

/-- A result whose problem is put at a place. -/
def ofResult {α : Type} (position : Option Position) : Except Problem α → Eval α
  | .ok a => pure a
  | .error problem => fail problem position

/-- Adds to the output. -/
def write (output : Output) : Eval Unit := modify fun s => { s with output := s.output ++ output }

/-- Repeats an evaluation as long as it asks for it, up to a number of times. -/
def again (m : Eval Bool) : Nat → Eval Unit
  | 0 => signal .unfinished
  | n + 1 => fun s =>
    match m s with
    | (.ok true, s) => again m n s
    | (.ok false, s) => (.ok (), s)
    | (.error signal, s) => (.error signal, s)

/-- Goes through the places from `place` on, a number of them at most, as long as the evaluation
asks for it. -/
def through (m : (place : Nat) → Eval Bool) (place : Nat) : (number : Nat) → Eval Unit
  | 0 => pure ()
  | n + 1 => fun s =>
    match m place s with
    | (.ok true, s) => through m (place + 1) n s
    | (.ok false, s) => (.ok (), s)
    | (.error signal, s) => (.error signal, s)

/-- The values of evaluations, one after the other. -/
def collect {α β : Type} (m : α → Eval β) : List α → Eval (List β)
  | [] => pure []
  | a :: rest => bind (m a) fun b => bind (collect m rest) fun bs => pure (b :: bs)

/-- What the clock of a host shows. -/
def readClock (host : Host) : Eval Nat := fun s =>
  (.ok (host.clock s.readings), { s with readings := s.readings + 1 })

/-- Whether a host has a module at a path. -/
def hasModule (host : Host) (path : String) : Eval Bool := fun s =>
  (.ok (host.modules path), { s with fetched := path :: s.fetched })

/-! ### Variables -/

/-- Brings a variable into scope. -/
def declare (name : String) (value : Datum) (constant : Bool) : Eval Unit :=
  modify fun s => { s with scope := ⟨name, value, constant⟩ :: s.scope }

/-- The innermost variable of a name. -/
def findVariable (name : String) : Eval (Option Variable) :=
  bind get fun s => pure (s.scope.find? (·.name == name))

/-- The content of a value: that of its cell if it is shared. -/
def content (value : Datum) : Eval Datum := fun s =>
  match value with
  | .shared cell => (.ok ((s.cells[cell]?).getD .unit), s)
  | value => (.ok value, s)

/-- The scope with a new value for the innermost variable of a name. -/
def replaceIn (name : String) (value : Datum) : List Variable → List Variable
  | [] => []
  | v :: rest => if v.name = name then { v with value } :: rest else v :: replaceIn name value rest

/-- Gives a variable a new value; a shared one puts it into its cell. -/
def store (v : Variable) (value : Datum) : Eval Unit :=
  modify fun s =>
    match v.value with
    | .shared cell => { s with cells := s.cells.set cell value }
    | _ => { s with scope := replaceIn v.name value s.scope }

/-- The cell of a variable, which is made if there is none. -/
def share (v : Variable) : Eval Datum := fun s =>
  match v.value with
  | .shared cell => (.ok (.shared cell), s)
  | value =>
    let cell := Datum.shared s.cells.length
    (.ok cell, { s with
      cells := s.cells ++ [value], scope := replaceIn v.name cell s.scope })

/-- An evaluation whose variables go out of scope at its end, however it ends. -/
def block {α : Type} (m : Eval α) : Eval α := fun s =>
  let (result, after) := m s
  (result, { after with scope := after.scope.drop (after.scope.length - s.scope.length) })

end Eval
end Rulebook.Script
