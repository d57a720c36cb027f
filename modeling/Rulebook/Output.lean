/-!
# Output

What a computation leaves behind besides its result: records for the log and text for the standard
output, each in the order of their appearance.
-/

namespace Rulebook

/-- How much a log record matters. -/
inductive Level where
  | error
  | warn
  | info
  | debug
  | trace
  deriving Repr, DecidableEq

namespace Level

/-- The name of a level. -/
def name : Level → String
  | error => "ERROR"
  | warn => "WARN"
  | info => "INFO"
  | debug => "DEBUG"
  | trace => "TRACE"

/-- The rank of a level, the most important one first. -/
def rank : Level → Nat
  | error => 1
  | warn => 2
  | info => 3
  | debug => 4
  | trace => 5

/-- The level that goes by a name, in any case; anything else means `info`. -/
def ofName (name : String) : Level :=
  match name.map Char.toLower with
  | "debug" => debug
  | "warn" => warn
  | "warning" => warn
  | "error" => error
  | "trace" => trace
  | _ => info

end Level

/-- A line of the log. The target says which part of the program it comes from. -/
structure LogRecord where
  level : Level
  target : String
  message : String
  deriving Repr, DecidableEq

/-- Log records and printed text. -/
structure Output where
  logs : List LogRecord
  printed : String
  deriving Repr, DecidableEq

namespace Output

/-- No output. -/
def empty : Output := ⟨[], ""⟩

instance : EmptyCollection Output := ⟨empty⟩

/-- The output of one computation followed by that of another. -/
def append (a b : Output) : Output := ⟨a.logs ++ b.logs, a.printed ++ b.printed⟩

instance : Append Output := ⟨append⟩

/-- A single log record. -/
def log (level : Level) (target message : String) : Output := ⟨[⟨level, target, message⟩], ""⟩

/-- Printed text alone. -/
def print (text : String) : Output := ⟨[], text⟩

@[simp]
theorem logs_append (a b : Output) : (a ++ b).logs = a.logs ++ b.logs := rfl

@[simp]
theorem printed_append (a b : Output) : (a ++ b).printed = a.printed ++ b.printed := rfl

@[ext]
theorem ext {a b : Output} (logs : a.logs = b.logs) (printed : a.printed = b.printed) : a = b := by
  cases a; cases b; simp_all

/-- Output is left in sequence, in whatever way the sequence is grouped. -/
theorem append_assoc (a b c : Output) : a ++ b ++ c = a ++ (b ++ c) :=
  ext (List.append_assoc _ _ _) String.append_assoc

@[simp]
theorem empty_append (a : Output) : ∅ ++ a = a :=
  ext rfl (String.empty_append)

@[simp]
theorem append_empty (a : Output) : a ++ ∅ = a :=
  ext (List.append_nil _) (String.append_empty)

end Output
end Rulebook
