import Rulebook.Script.Basic
import Rulebook.Compilation

/-!
# The workbench

A workbench prepares scripts. It keeps the sandbox that it set up for the first one, so that later
scripts may use the same actions, until the security mode changes or it is cleared. A prepared
script keeps its sandbox.
-/

namespace Rulebook

/-- A workbench. -/
structure Workbench where
  mode : SecurityMode := .secure
  sandbox : Option Script.Sandbox := none

namespace Workbench

/-- The workbench in a mode, and whether that is another one than before. -/
def setMode (workbench : Workbench) (mode : SecurityMode) : Workbench × Bool :=
  if workbench.mode = mode then (workbench, false) else ({ mode }, true)

/-- The workbench without a sandbox. -/
def clear (workbench : Workbench) : Workbench := { workbench with sandbox := none }

/-- The sandbox on the workbench; it is set up for the registered actions if there is none. -/
def setUp (workbench : Workbench) (registry : Registry) : Script.Sandbox × Output :=
  match workbench.sandbox with
  | some sandbox => (sandbox, .empty)
  | none =>
    (⟨workbench.mode, registry⟩, .log .debug "docrule_script"
      ("Script engine built in " ++ (if workbench.mode.isSecure then "secure" else "open") ++
        " mode"))

/-- Prepares a script. -/
def prepare (workbench : Workbench) (source : String) (registry : Registry) :
    Except ScriptError Script × Workbench × Output :=
  let (sandbox, output) := workbench.setUp registry
  (Script.build sandbox source, { workbench with sandbox := some sandbox }, output)

end Workbench

/-- Runs the entry point of a script that was compiled from a configuration. -/
def Script.execute (script : Script) (input : String) (host : Host) :
    Output × Except Fault (Except ScriptError String) :=
  script.call Compilation.entryPoint input host

end Rulebook
