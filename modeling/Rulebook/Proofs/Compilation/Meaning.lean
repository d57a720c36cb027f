import Rulebook.Proofs.Compilation.Outline
import Rulebook.Proofs.Script.Running
import Rulebook.Script.Basic

/-!
# What a configuration means

The run of a configuration on the text of an input, said on its outline: the input and the document are
read, the statements are run, and the rules whose conditions hold, in their order. How the language
evaluates an expression or a statement is taken as it is, and what the invocation of an action comes
to is a parameter of the run.
-/

namespace Rulebook

open Script Script.Eval Compilation

section

/-! The parts of a rule are run within a bound of the depth that is `depth` more than the evaluation of
what they are made of needs. -/

variable (setting : Setting) (depth : Nat) (invoke : Invocation → Eval Datum)

/-- The document becomes what an invocation comes to. -/
def Invocation.run (i : Invocation) : Eval Unit := do
  setVariable "document" (← invoke i) i.target

/-- The statements of a rule that have an effect. If nothing follows them, the last one is among
them. -/
def RuleOutline.statements (rule : RuleOutline) : List Stmt :=
  if rule.invocations.isEmpty then Stmt.tidy true true (Stmt.simplifyAll true rule.body)
  else Stmt.kept rule.body

/-- A rule evaluates its condition; if the value is truthy, its statements and invocations are run in a
block of their own. -/
def RuleOutline.run (rule : RuleOutline) : Eval Unit := do
  let condition ← Eval.run setting (depth + 2) (.expr rule.condition.simplify)
  if condition.isTruthy then
    block do
      inOrder (stmt setting (Eval.run setting (depth + 2))) rule.statements
      inOrder (Invocation.run invoke) rule.invocations

/-- The run of a configuration. A text that is not JSON is answered as it is. -/
def Outline.run (o : Outline) (document input : String) : Eval Datum := do
  match Datum.readJson? input with
  | none => return .text input
  | some value =>
    let place := placeOf (Position.start.afterAll (charsOf headLine)) (readingLines document) 28
    declare "input" value false
    declare "document" (← parse document place) false
    inOrder (stmt setting (Eval.run setting (depth + 3))) (Stmt.kept o.before)
    inOrder (RuleOutline.run setting depth invoke) o.rules
    inOrder (stmt setting (Eval.run setting (depth + 3))) (Stmt.kept o.after)
    return .text (← lookUp "document" (placeOf o.answer answerLine 3)).toJson.compact

/-- The output and the result of the run of a configuration, which is a call of a function of the
input. -/
def Outline.result (o : Outline) (document input : String) :
    Output × Except Fault (Except ScriptError String) :=
  let call := callFunction (fun _ => o.run setting depth invoke document input)
    ⟨entryPoint, ["input_json"], []⟩ [.text input] none none
  let (result, state) := valueOf call {}
  (state.output, resultOf result)

end

namespace Invocation

/-- What the language makes of the call of an action with the document and the input. -/
def called (setting : Setting) (depth : Nat) (i : Invocation) : Eval Datum :=
  Eval.run setting (depth + 2)
    (.expr (.call i.action [.name "document" i.document, .name "input" i.input] i.call))

/-- What the registered action makes of the document and the input. -/
def performed (setting : Setting) (i : Invocation) : Eval Datum := do
  let input ← lookUp "input" i.input
  let document ← lookUp "document" i.document
  match setting.sandbox.actions.get? i.action with
  | some action => callAction i.action action document input (some i.call)
  | none =>
    fail (.unknownFunction i.action [document.typeName, input.typeName]) i.call

end Invocation
end Rulebook
