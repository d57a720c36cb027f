import Rulebook.Host
import Rulebook.Output

/-!
# Procedures

A procedure is a computation that looks at its host, reads files and leaves output on the way to a
result. It is a tree of such steps: `Procedure.onHost` follows it on a host that stands still, and a
program follows it on the machine. `Procedure.onHost_bind` says what one procedure after another
does.
-/

namespace Rulebook

/-- What stands at a path. -/
inductive File where
  | missing
  | unreadable (reason : String)
  | text (content : String)
  deriving Repr, DecidableEq

/-- A computation that looks at its host and leaves output on the way to a result. -/
inductive Procedure (α : Type) where
  | done (result : α)
  | look (next : Host → Procedure α)
  | read (path : String) (next : File → Procedure α)
  | emit (output : Output) (next : Procedure α)

namespace Procedure

/-- One procedure after another. -/
def bind {α β : Type} : Procedure α → (α → Procedure β) → Procedure β
  | done a, f => f a
  | look next, f => look fun host => bind (next host) f
  | read path next, f => read path fun file => bind (next file) f
  | emit output next, f => emit output (bind next f)

instance : Monad Procedure where
  pure := done
  bind := bind

/-- The host as it is at the moment. -/
def host : Procedure Host := look done

/-- What stands at a path. -/
def file (path : String) : Procedure File := read path done

/-- Leaves output. -/
def leave (output : Output) : Procedure Unit := emit output (done ())

/-- The output and the result of a procedure on a host that stands still, with the given files. -/
def onHost (host : Host) (files : Fields String) {α : Type} : Procedure α → Output × α
  | done a => ({}, a)
  | look next => (next host).onHost host files
  | read path next =>
    (next (match files.get? path with
      | some content => .text content
      | none => .missing)).onHost host files
  | emit output next =>
    let (more, a) := next.onHost host files
    (output ++ more, a)

section

variable {α β : Type} (host : Host) (files : Fields String)

@[simp]
theorem onHost_done (a : α) : (done a).onHost host files = ({}, a) := rfl

@[simp]
theorem onHost_look (next : Host → Procedure α) :
    (look next).onHost host files = (next host).onHost host files := rfl

@[simp]
theorem onHost_emit (output : Output) (next : Procedure α) :
    (emit output next).onHost host files =
      (output ++ (next.onHost host files).1, (next.onHost host files).2) := rfl

/-- One procedure after another leaves the output of the first one, then that of the second one. -/
theorem onHost_bind (p : Procedure α) (f : α → Procedure β) :
    (p >>= f).onHost host files =
      ((p.onHost host files).1 ++ ((f (p.onHost host files).2).onHost host files).1,
        ((f (p.onHost host files).2).onHost host files).2) := by
  show (bind p f).onHost host files = _
  induction p with
  | done a => simp [bind]
  | look next ih => simp [bind, ih]
  | read path next ih => simp [bind, onHost, ih]
  | emit output next ih => simp [bind, ih, Output.append_assoc]

end

end Procedure
end Rulebook
