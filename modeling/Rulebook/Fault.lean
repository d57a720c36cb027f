/-!
# Faults

A fault is not an answer to a caller but the breakdown of a computation that was asked something
that it has no answer for.
-/

namespace Rulebook

/-- Why a computation broke down. -/
inductive Fault where
  /-- A value that has neither names nor items was asked for a member. -/
  | noMembers
  /-- An evaluation did not come to an end in the steps allowed. -/
  | unfinished
  deriving Repr, DecidableEq

end Rulebook
