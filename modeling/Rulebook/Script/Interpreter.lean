import Rulebook.Script.Word

/-!
# The interpreter

`Eval.step` evaluates an expression or the statements of a body, given an evaluator for the parts
and for the bodies of functions; `Eval.run` ties the knot with a bound on the depth. The value of a
body is that of its last statement.
-/

namespace Rulebook.Script
namespace Eval

/-- More steps than a run can take. -/
def depth : Nat := 0x4000000000000000

section

variable (setting : Setting) (self : Runner)

/-! ### Expressions -/

/-- The truth value that the value of an expression has to be. -/
def truth (e : Expr) : Eval Bool := do
  match ← self (.expr e) with
  | .bool b => return b
  | value => fail (.kind "bool" value.typeName) e.position

/-- The members of a map literal, evaluated one after the other. -/
def members : List (String × Expr) → Eval (List (String × Datum))
  | [] => return []
  | (name, e) :: rest => do
    let value ← self (.expr e)
    return (name, value) :: (← members rest)

/-- The cells of captured variables. -/
def capture (captured : List (String × Position)) : Eval (List Datum) :=
  collect (fun (name, position) => do share (← variableAt name position)) captured

/-- Applies an operator. -/
def applyOperator (operator : String) (operands : List Datum) (position : Position) :
    Eval Datum := do
  let answer := match operator, operands with
    | operator, [a] => Arithmetic.applyOne operator a
    | operator, [a, b] => (Arithmetic.apply operator a b).or
      ((Library.find operator [a, b]).map fun reply => reply.map (·.value))
    | _, _ => none
  match answer with
  | some result => ofResult (some position) result
  | none => fail (.unknownFunction operator (operands.map Datum.typeName)) position

/-- The value of an expression. -/
def expr : Expr → Eval Datum
  | .constant value _ => return value
  | .template parts _ => do
    return .text (String.join ((← values self parts).map Datum.display))
  | .list items _ => do return .list (← values self items)
  | .map items _ => do return .map (Fields.sort (← members self items))
  | .name name position => do content (← variableAt name position).value
  | .subject position => subjectAt position
  | .call name arguments position => call setting self name arguments position
  | .apply operator operands position => do
    applyOperator operator (← values self operands) position
  | .chain chainRoot links => follow setting self chainRoot links
  | .and a b => do if ← truth self a then return .bool (← truth self b) else return .bool false
  | .or a b => do if ← truth self a then return .bool true else return .bool (← truth self b)
  | .coalesce a b => do
    let value ← self (.expr a)
    if value.isUnit then self (.expr b) else return value
  | .statement statement => self (.body [statement])
  | .function name captured _ => do return .function name (← capture captured)

/-! ### Loops -/

/-- One round of a loop. -/
def round (body : List Stmt) : Eval Unit := do
  match ← outcome (block (self (.body body))) with
  | .error .next => return ()
  | result => let _ ← ofOutcome result

/-- A loop; its value is the one that it is left with. -/
def breakable (loop : Eval Unit) : Eval Datum := do
  match ← outcome loop with
  | .ok () => return .unit
  | .error (.left value) => return value
  | .error reason => signal reason

/-- Goes through the items of a value. -/
def each (item : String) (counter : Option String) (source : Expr) (body : List Stmt) :
    Eval Datum := do
  match (← self (.expr source)).items? with
  | none => fail .notIterable source.position
  | some (number, itemAt) =>
    breakable <| through (fun place => block do
      counter.forM fun name => declare name (.ofNat place) false
      declare item (itemAt place) false
      round self body
      return true) 0 number

/-! ### Choices -/

/-- Whether one of the patterns is the value. -/
def matchesValue (value : Datum) (patterns : List CasePattern) : Bool :=
  patterns.any fun
    | .value pattern => pattern.typeName == value.typeName && pattern.equal value
    | .range _ _ _ => false

/-- Whether one of the patterns is a range that holds the value. -/
def matchesRange (value : Datum) (patterns : List CasePattern) : Bool :=
  patterns.any fun
    | .value _ => false
    | .range first last closed =>
      match value with
      | .int n => first ≤ n && (if closed then n ≤ last else n < last)
      | _ => false

/-- The body of the first of the cases whose condition holds. -/
def chosenCase : List Case → Eval (Option Stmt)
  | [] => return none
  | .mk _ condition body :: rest => do
    if ← truth self condition then return body else chosenCase rest

/-- Chooses a case. The ranges count only if no case names the value itself. -/
def choose (value : Datum) (cases : List Case) (otherwise : Option Stmt) : Eval Datum := do
  let byValue := cases.filter fun | .mk patterns _ _ => matchesValue value patterns
  let byRange := cases.filter fun | .mk patterns _ _ => matchesRange value patterns
  match (← chosenCase self (if byValue.isEmpty then byRange else byValue)).or otherwise with
  | some body => self (.body [body])
  | none => return .unit

/-! ### Errors -/

/-- Evaluates statements, and others with what they raise if that can be caught. -/
def attempt (body : List Stmt) (caught : Option String) (handler : List Stmt) : Eval Datum := do
  match ← outcome (block (self (.body body))) with
  | .error (.error err) =>
    if err.problem.isFatal then signal (.error err)
    else
      let result ← outcome <| block do
        caught.forM fun name => declare name err.caught false
        self (.body handler)
      match result with
      | .ok _ => return .unit
      | .error (.error again) =>
        signal (.error (if again.isRethrow then err.rethrown again.position else again))
      | .error reason => signal reason
  | result => ofOutcome result

/-! ### Statements -/

/-- The value of an expression; that of none is the unit. -/
def optional : Option Expr → Eval Datum
  | some e => self (.expr e)
  | none => return .unit

/-- The value that an assignment puts in the place of an old one. -/
def assigned (operator : Option String) (value : Datum) (position : Position) (old : Datum) :
    Eval Datum :=
  match operator with
  | none => return value
  | some operator =>
    match Arithmetic.assign operator old value with
    | some result => ofResult (some position) result
    | none => fail (.unknownFunction operator [old.typeName, value.typeName]) position

/-- Assigns to what the left side leads to. The right side is evaluated first. -/
def assign (target : Expr) (operator : Option String) (value : Expr) (position : Position) :
    Eval Unit := do
  let change := assigned operator (← self (.expr value)) position
  match target with
  | .chain chainRoot links => changeAt setting self chainRoot links change
  | target =>
    let place ← root self target
    if let (true, .name name _) := (place.constant, target) then
      fail (.constant name) target.position
    place.put (← change place.value)

/-- The value of a statement. -/
def stmt : Stmt → Eval Datum
  | .empty => return .unit
  | .expr e => self (.expr e)
  | .declare name value constant _ => do
    declare name (← optional self value) constant
    return .unit
  | .assign target operator value position => do
    assign setting self target operator value position
    return .unit
  | .block body => block (self (.body body))
  | .branch condition yes no => do
    let chosen ← truth self condition
    block (self (.body (if chosen then yes else no)))
  | .switch subject cases otherwise => do
    choose self (← self (.expr subject)) cases otherwise
  | .loop condition body =>
    breakable <| again (do
      let goesOn ← match condition with
        | some e => truth self e
        | none => pure true
      if goesOn then round self body
      return goesOn) depth
  | .again body condition wanted =>
    breakable <| again (do
      round self body
      return (← truth self condition) == wanted) depth
  | .each item counter source body => each self item counter source body
  | .leave value => do signal (.left (← optional self value))
  | .next => signal .next
  | .answer value => do signal (.answered (← optional self value))
  | .raise value position => do fail (.thrown (← optional self value)) position
  | .attempt body caught handler => attempt self body caught handler
  | .fetch path position => do
    let path ← textArgument self path
    if ← hasModule setting.host path then return .unit else fail (.unknownModule path) position

/-- The value of the last of some statements. -/
def body : List Stmt → Eval Datum
  | [] => return .unit
  | [s] => stmt setting self s
  | s :: rest => do
    let _ ← stmt setting self s
    body rest

end

/-- Evaluates a task with an evaluator for smaller ones. -/
def step (setting : Setting) (self : Runner) : Task → Eval Datum
  | .expr e => expr setting self e
  | .body statements => body setting self statements

/-- Evaluates a task up to a depth. -/
def run (setting : Setting) : (depth : Nat) → Task → Eval Datum
  | 0, _ => signal .unfinished
  | n + 1, task => step setting (run setting n) task

end Eval
end Rulebook.Script
