import Rulebook.Script.Interpreter
import Rulebook.Script.Simplify

/-!
# Scripts

A script is a program together with the sandbox that it runs in. `Script.build` reads it,
`Script.call` runs its own statements and then one of its functions, which takes a text and has to
come to a text.
-/

namespace Rulebook

/-- Why a script has no result. -/
inductive ScriptError where
  | eval (err : Script.Error)
  | invalidType (typeName : String)
  | compile (source : String) (err : Script.SyntaxError)

namespace ScriptError

/-- The error that is behind the error, in words. -/
def cause? : ScriptError → Option String
  | eval err => some err.message
  | invalidType _ => none
  | compile _ err => some err.message

/-- The wording of an error. -/
def message : ScriptError → String
  | eval err => "Eval error: " ++ err.message
  | invalidType typeName => "Invalid type: expected string result, got " ++ typeName
  | compile _ err => "Compile error: " ++ err.message

end ScriptError

/-- A script that can be run. -/
structure Script where
  source : String
  program : Script.Program
  sandbox : Script.Sandbox

namespace Script

/-- Reads a script. Only in the open mode it may evaluate texts. -/
def build (sandbox : Sandbox) (source : String) : Except ScriptError Script :=
  match Program.read (!sandbox.mode.isSecure) source with
  | .ok program => .ok ⟨source, program.simplify, sandbox⟩
  | .error err => .error (.compile source err)

/-- What a script may use on a host. -/
def setting (script : Script) (host : Host) : Setting :=
  ⟨script.program.functions, script.sandbox, host⟩

/-- Runs the statements of a script and then one of its functions. -/
def evaluation (setting : Setting) (program : Program) (function argument : String) :
    Eval Datum := do
  let run := Eval.run setting Eval.depth
  let top ← Eval.outcome (Eval.block (run (.body program.statements)))
  match top with
  | .ok _ => pure ()
  | .error (.answered _) => pure ()
  | .error signal => Eval.signal signal
  match setting.function? function 1 with
  | some f => Eval.valueOf (Eval.callFunction run f [.text argument] none none)
  | none => Eval.fail (.unknownFunction function ["string"]) none

/-- The result of an evaluation, which has to be a text. A script that exits has the value with
which it does so. -/
def resultOf : Except Signal Datum → Except Fault (Except ScriptError String)
  | .ok (.text s) => .ok (.ok s)
  | .ok value => .ok (.error (.invalidType value.typeName))
  | .error (.exited (.text s)) => .ok (.ok s)
  | .error (.exited value) => .ok (.error (.invalidType value.typeName))
  | .error (.error err) => .ok (.error (.eval err))
  | .error (.fault fault) => .error fault
  | .error _ => .error .unfinished

/-- Calls a function of a script with a text. -/
def call (script : Script) (function argument : String) (host : Host) :
    Output × Except Fault (Except ScriptError String) :=
  let (result, state) := evaluation (script.setting host) script.program function argument {}
  (state.output, resultOf result)

end Script
end Rulebook
