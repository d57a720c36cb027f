import Rulebook.Script.Chain
import Rulebook.Script.Reader

/-!
# Calls by name

The call of a function by its name in front of its arguments. A variable as the first argument of a
function that the script does not declare is changed if the function changes its argument. Some
names are words of the language: they print, make functions into values, ask what is in scope, or
end the script.
-/

namespace Rulebook.Script

namespace Setting

/-- The output of `print`. -/
def printed (setting : Setting) (text : String) : Output :=
  match setting.sandbox.mode with
  | .secure => .log .info "docrule_script" text
  | .opened => .print (text ++ "\n")

/-- The output of `debug` at a place. -/
def debugged (setting : Setting) (text : String) (position : Position) : Output :=
  match setting.sandbox.mode with
  | .secure => .log .debug "docrule_script" (text ++ " (script) " ++ position.text)
  | .opened =>
    .print (toString position.line ++ ":" ++ toString position.column ++ " | " ++ text ++ "\n")

/-- The output of a call of `print` or `debug`, given the text that the call came to. -/
def wordOutput (setting : Setting) (name text : String) (position : Position) : Output :=
  if name = "debug" then setting.debugged text position else setting.printed text

end Setting

namespace Eval

section

variable (setting : Setting) (self : Runner)

/-- The values of expressions. -/
def values (arguments : List Expr) : Eval (List Datum) :=
  collect (fun e => self (.expr e)) arguments

/-- The values of arguments, and how to change the first one. A variable as the first argument is
looked up after the others, and can be changed unless it is a constant or shared. -/
def changeableArguments : List Expr → Eval (List Datum × Option (Datum → Eval Unit))
  | .name name position :: rest => do
    let rest ← values self rest
    let v ← variableAt name position
    let value ← content v.value
    let steady := v.constant || match v.value with
      | .shared _ => true
      | _ => false
    return (value :: rest, if steady then none else some (store v))
  | .subject position :: rest => do
    let rest ← values self rest
    return ((← subjectAt position) :: rest,
      some fun value => modify fun s => { s with subject := some value })
  | arguments => return (← values self arguments, none)

/-- Calls a function of the script, the language or the host. -/
def callFree (name : String) (arguments : List Expr) (position : Position) : Eval Datum := do
  let (arguments, put) ← changeableArguments self arguments
  match setting.function? name arguments.length with
  | some f => valueOf (callFunction self f arguments none position)
  | none =>
    let reply ← match higherOrder setting self (some position) name arguments with
      | some reply => reply
      | none => callNative setting name arguments position
    if let (some put, some changed) := (put, reply.changed) then put changed
    return reply.value

/-- Calls `print` or `debug`. A registered action of that name has to answer with a text. -/
def callPrinter (name : String) (arguments : List Expr) (position : Position) : Eval Datum := do
  let text ← match ← values self arguments with
    | [] => pure ""
    | [value] => pure (if name = "debug" then value.inspect else value.display)
    | arguments =>
      match (← callNative setting name arguments position).value with
      | .text text => pure text
      | value => fail (.outputKind "string" value.typeName) position
  write (setting.wordOutput name text position)
  return .unit

/-- The text that the value of an argument has to be. -/
def textArgument (argument : Expr) : Eval String := do
  match ← self (.expr argument) with
  | .text s => return s
  | value => fail (.kind "string" value.typeName) argument.position

/-- Evaluates a text as statements in the scope at hand. The text must not declare functions. -/
def evaluateText (text : String) (position : Position) : Eval Datum := do
  match Program.read true text with
  | .error err => fail (.malformed err.problem) position
  | .ok program =>
    if !program.functions.isEmpty then fail (.malformed (.misplaced "fn")) position
    match ← outcome (self (.body program.statements)) with
    | .error (.answered value) => return value
    | result => ofOutcome result

/-- Whether a variable is shared. -/
def isShared (name : String) (position : Position) : Eval Datum := do
  match (← variableAt name position).value with
  | .shared _ => return .bool true
  | _ => return .bool false

/-- Calls a function that is the value of the first argument. -/
def callFirst (arguments : List Expr) (position : Position) : Eval Datum := do
  match ← values self arguments with
  | .function f bound :: rest => valueOf (callPointer setting self f (bound ++ rest) none position)
  | value :: _ => fail (.kind "Fn" value.typeName) (arguments.head?.bind Expr.position)
  | [] => fail (.unknownFunction "call" []) position

/-- Whether a word has its fixed meanings only, so that no action of its name is ever called. -/
def isFixedWord (name : String) : Bool :=
  ["type_of", "eval", "Fn", "call", "curry", "is_def_var", "is_def_fn", "is_shared"].contains name

/-- Calls a function by its name. -/
def call (name : String) (arguments : List Expr) (position : Position) : Eval Datum := do
  match name, arguments with
  | "print", _ => callPrinter setting self name arguments position
  | "debug", _ => callPrinter setting self name arguments position
  | "call", _ => callFirst setting self arguments position
  | "eval", [argument] => evaluateText self (← textArgument self argument) position
  | "Fn", [argument] => return .function (← textArgument self argument) []
  | "curry", first :: rest =>
    match ← self (.expr first) with
    | .function f bound => return .function f (bound ++ (← values self rest))
    | value => fail (.kind "Fn" value.typeName) first.position
  | "is_def_var", [argument] =>
    return .bool (← findVariable (← textArgument self argument)).isSome
  | "is_def_fn", [argument, count] =>
    let name ← textArgument self argument
    match ← self (.expr count) with
    | .int n => return .bool (0 ≤ n && (setting.function? name n.toInt.toNat).isSome)
    | value => fail (.kind "i64" value.typeName) count.position
  | "is_shared", [.name name position] => isShared name position
  | "is_shared", [argument] =>
    let _ ← self (.expr argument)
    return .bool false
  | "type_of", [_] => callFree setting self name arguments position
  | "exit", [] => signal (.exited .unit)
  | "exit", [argument] => signal (.exited (← self (.expr argument)))
  | name, arguments =>
    if isFixedWord name then
      fail (.unknownFunction name ((← values self arguments).map Datum.typeName)) position
    else callFree setting self name arguments position

end

end Eval
end Rulebook.Script
