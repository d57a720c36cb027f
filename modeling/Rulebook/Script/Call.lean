import Rulebook.Script.Evaluation
import Rulebook.Script.Exchange
import Rulebook.Script.Library.Basic
import Rulebook.Calendar

/-!
# Calls

A call goes to the function of the script that has the name and the number of parameters, else to a
function of the language, else to a registered action. The evaluation of the bodies of functions is
left to a runner, which evaluates smaller tasks.
-/

namespace Rulebook.Script

/-- Something to evaluate. -/
inductive Task where
  | expr (expr : Expr)
  /-- Statements in the scope in which they stand. -/
  | body (body : List Stmt)

/-- An evaluator of tasks. -/
abbrev Runner := Task → Eval Datum

/-- The number of calls that may be under way at the same time. -/
def maxCalls : Nat := 64

namespace Setting

/-- The function of the script with a name and a number of parameters. -/
def function? (setting : Setting) (name : String) (arity : Nat) : Option Function :=
  setting.functions.find? fun f => f.name == name && f.parameters.length == arity

end Setting

namespace Eval

/-- The value that an action sees, or the error that there is none. -/
def toValue (position : Option Position) (argument : Datum) : Eval Value :=
  match argument.toValue with
  | .ok value => pure value
  | .error .bytes => fail (.malformed .sign) position
  | .error (.noData typeName) => fail (.outputKind "value" typeName) position

/-- Invokes an action. Its refusal is an error that names the action. -/
def callAction (name : String) (action : Action) (document input : Datum)
    (position : Option Position) : Eval Datum := do
  let document ← toValue position document
  let input ← toValue position input
  let reply := action.run document input
  write reply.output
  match reply.result with
  | .error fault => signal (.fault fault)
  | .ok (.error refusal) =>
    fail (.thrown (.text ("Action " ++ name ++ " failed: " ++ refusal.message))) position
  | .ok (.ok document) => return .ofValue document

/-- The functions that reach the host. In the secure mode, the clock is all that they reach, and it
only yields points in time. -/
def callHost (setting : Setting) (name : String) (arguments : List Datum) : Option (Eval Datum) :=
  let host := setting.host
  match setting.sandbox.mode, name, arguments with
  | .secure, "timestamp", [] => some do return .instant (← readClock host)
  | .opened, "timestamp", [] => some do return .ofNat ((← readClock host) / 1000000)
  | .opened, "now", [] => some do return .text (Calendar.text (← readClock host))
  | .opened, "env", [.text name] =>
    some (return ((host.environment.get? name).map .text).getD .unit)
  | .opened, "envs", [] =>
    some (return .map (Fields.sort (host.environment.map fun (name, value) => (name, .text value))))
  | .opened, "log", [.text level, message] => some do
    write (.log (.ofName level) "docrule_script::host" message.display)
    return .unit
  | _, "elapsed", [.instant start] => some do
    return .float (Decimal.ofInt ((← readClock host) - start : Int) / 1000000000.0)
  | _, _, _ => none

/-- Calls a function that the script does not declare. -/
def callNative (setting : Setting) (name : String) (arguments : List Datum)
    (position : Option Position) : Eval Library.Reply := do
  match Library.find name arguments with
  | some result => ofResult position result
  | none =>
    match callHost setting name arguments with
    | some value => return ⟨← value, none⟩
    | none =>
      match setting.sandbox.actions.get? name, arguments with
      | some action, [document, input] =>
        return ⟨← callAction name action document input position, none⟩
      | _, _ => fail (.unknownFunction name (arguments.map Datum.typeName)) position

/-- Calls a function of the script with a subject: how the call ends, and what became of the
subject. -/
def callFunction (self : Runner) (f : Function) (arguments : List Datum) (subject : Option Datum)
    (position : Option Position) : Eval (Except Signal Datum × Option Datum) := fun s =>
  if maxCalls ≤ s.calls then
    (.ok (.error (.error { problem := .tooManyCalls, position }), subject), s)
  else
    let scope := (f.parameters.zip arguments).map fun (name, value) => ⟨name, value, false⟩
    let (result, after) := self (.body f.body) { s with scope, subject, calls := s.calls + 1 }
    let outcome := match result with
      | .error (.answered value) => .ok value
      | .error (.error err) => .error (.error (err.leaving position))
      | result => result
    (.ok (outcome, after.subject),
      { after with scope := s.scope, subject := s.subject, calls := s.calls })

/-- Calls a function that is given by its name, with all its arguments. -/
def callPointer (setting : Setting) (self : Runner) (name : String) (arguments : List Datum)
    (subject : Option Datum) (position : Option Position) :
    Eval (Except Signal Datum × Option Datum) := do
  match setting.function? name arguments.length with
  | some f => callFunction self f arguments subject position
  | none =>
    let reply ← callNative setting name (subject.toList ++ (← collect content arguments)) position
    return (.ok reply.value, reply.changed.or subject)

/-- The value of a call. -/
def valueOf (call : Eval (Except Signal Datum × Option Datum)) : Eval Datum := do
  ofOutcome (← call).1

/-- How a function is called for an item: the item is its subject or one of its arguments. -/
structure ItemCall where
  /-- The arguments before the item. -/
  before : List Datum
  item : Datum
  /-- What may come after the item. -/
  extras : List Datum

/-- Calls a function for an item, with as many arguments as it has parameters. Without a parameter
for it, the item is the subject. -/
def callForItem (setting : Setting) (self : Runner) (name : String) (bound : List Datum)
    (call : ItemCall) (position : Option Position) : Eval Datum := do
  let short := bound ++ call.before
  let middle := short ++ [call.item]
  let long := middle ++ call.extras
  match setting.function? name short.length, setting.function? name middle.length,
    setting.function? name long.length with
  | some f, _, _ => valueOf (callFunction self f short (some call.item) position)
  | none, some f, _ => valueOf (callFunction self f middle none position)
  | none, none, some f => valueOf (callFunction self f long none position)
  | none, none, none => valueOf (callPointer setting self name middle none position)

end Eval
end Rulebook.Script
