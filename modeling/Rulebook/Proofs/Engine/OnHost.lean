import Rulebook.Engine.Session

/-!
# Operations on a host that stands still

`Session.onHost` follows an operation on an engine while the host does not change: it gives the
answer and the engine afterwards, and forgets the output. Its equations say what each step of an
operation does to the engine, so that later proofs need not open the layers of the monad.
-/

namespace Rulebook.Session

variable {α β : Type} (host : Host) (files : Fields String)

/-- The answer of an operation on a host that stands still, and the engine afterwards. -/
def onHost (work : Session α) (engine : Engine) : Except Fault α × Engine :=
  (Procedure.onHost host files (work engine)).2

/-- How one operation goes on after another one. A fault breaks it off. -/
def proceed (next : α → Session β) :
    Except Fault α × Engine → Procedure (Except Fault β × Engine)
  | (.ok a, after) => next a after
  | (.error fault, after) => .done (.error fault, after)

theorem bind_apply (work : Session α) (next : α → Session β) (engine : Engine) :
    (work >>= next) engine = (work engine >>= proceed next) := by
  show Procedure.bind _ _ = Procedure.bind _ _
  congr 1
  funext result
  obtain ⟨_ | a, after⟩ := result <;> rfl

@[simp] theorem onHost_pure (a : α) (engine : Engine) :
    onHost host files (pure a) engine = (.ok a, engine) := rfl

/-- A fault of the first operation breaks off the second one. -/
theorem onHost_bind (work : Session α) (next : α → Session β) (engine : Engine) :
    onHost host files (work >>= next) engine =
      match onHost host files work engine with
      | (.ok a, after) => onHost host files (next a) after
      | (.error fault, after) => (.error fault, after) := by
  rw [onHost, bind_apply, Procedure.onHost_bind]
  show (Procedure.onHost host files _).2 = _
  rw [onHost]
  obtain ⟨_ | a, after⟩ := (Procedure.onHost host files (work engine)).2 <;> rfl

@[simp] theorem onHost_get (engine : Engine) :
    onHost host files (get : Session Engine) engine = (.ok engine, engine) := rfl

@[simp] theorem onHost_modify (f : Engine → Engine) (engine : Engine) :
    onHost host files (modify f) engine = (.ok (), f engine) := rfl

@[simp] theorem onHost_host (engine : Engine) :
    onHost host files Session.host engine = (.ok host, engine) := rfl

@[simp] theorem onHost_leave (output : Output) (engine : Engine) :
    onHost host files (leave output) engine = (.ok (), engine) := rfl

@[simp] theorem onHost_remark (text : String) (engine : Engine) :
    onHost host files (remark text) engine = (.ok (), engine) := rfl

@[simp] theorem onHost_ofResult (result : Except Fault α) (engine : Engine) :
    onHost host files (ofResult result) engine = (result, engine) := rfl

end Rulebook.Session

namespace Rulebook.Engine

open Session

variable {host : Host} {files : Fields String}

/-- An engine that fails to read a configuration stays as it is. -/
theorem onHost_configure (text : String) (engine : Engine) :
    (configure text).onHost host files engine = match engine.source.configuration text with
      | .ok (.ok configuration) => (.ok (.ok ()), { engine with
          loaded := some ⟨configuration, configuration.document⟩, compiled := none })
      | .ok (.error reason) => (.ok (.error (.source reason)), engine)
      | .error fault => (.error fault, engine) := by
  rw [configure, onHost_bind, onHost_get]
  dsimp only
  rw [onHost_bind, onHost_ofResult]
  rcases engine.source.configuration text with fault | reason | configuration <;> rfl

theorem onHost_runScript (script : Script) (input : String) (engine : Engine) :
    (runScript script input).onHost host files engine =
      ((script.execute input host).2.map fun result => result.mapError .script, engine) := by
  simp only [runScript, onHost_bind, onHost_host, onHost_leave, onHost_ofResult]
  cases (script.execute input host).2 with
  | error fault => rfl
  | ok result => cases result <;> rfl

end Rulebook.Engine
