import Rulebook.Fields

/-!
# The host

What a program can learn from the machine that it runs on, and how much of it rules may reach.
-/

namespace Rulebook

/-- The machine as a computation finds it. -/
structure Host where
  /-- The environment variables. -/
  environment : Fields String := []
  /-- What the clock shows when it is read the `n`-th time, in nanoseconds since the start of
  1970. -/
  clock : (n : Nat) → Nat := fun _ => 0
  /-- Whether scripts can import a module from a path. -/
  modules : (path : String) → Bool := fun _ => false

namespace Host

/-- The time at which the computation begins. -/
def time (host : Host) : Nat := host.clock 0

end Host

/-- How much of the host a script may reach. -/
inductive SecurityMode where
  /-- Nothing but the registered actions. -/
  | secure
  /-- The environment, the clock, the log and the standard output. -/
  | opened
  deriving Repr, DecidableEq

/-- Whether the mode is the secure one. -/
def SecurityMode.isSecure : SecurityMode → Bool
  | .secure => true
  | .opened => false

end Rulebook
