import Rulebook.CommandLine.Program
import Std.Time.DateTime.Timestamp

/-!
# The program on the machine

Follows the procedure of the program: looks at the environment and the clock, reads files, prints,
and writes the log to the error output as far as the filter admits it.
-/

namespace Rulebook.Main

/-- The time in nanoseconds since the start of 1970. -/
def now : IO Nat := do
  return (← Std.Time.Timestamp.now).toNanosecondsSinceUnixEpoch.toInt.toNat

/-- The name and the value of an environment entry. -/
def entryOf (text : String) : String × String :=
  (String.ofList (text.toList.takeWhile (· ≠ '=')),
    String.ofList ((text.toList.dropWhile (· ≠ '=')).drop 1))

/-- The environment variables. -/
def environment : IO (Fields String) := do
  let text ← try IO.FS.readFile "/proc/self/environ" catch _ => pure ""
  return ((text.splitOn "\x00").filter (!·.isEmpty)).map entryOf

/-- The machine at the moment. To a script, a microsecond passes each time it reads the clock. -/
def host : IO Host := do
  let time ← now
  return { environment := ← environment, clock := fun n => time + 1000 * n }

/-- What stands at a path. -/
def file (path : String) : IO File := do
  try
    return .text (← IO.FS.readFile ⟨path⟩)
  catch
    | .permissionDenied _ _ _ => return .unreadable "Permission denied (os error 13)"
    | .userError _ => return .unreadable "stream did not contain valid UTF-8"
    | _ => return .missing

/-- Writes output. -/
def write (filter : LogFilter) (output : Output) : IO Unit := do
  for record in output.logs do
    if filter.admits record then IO.eprint (record.line (← now))
  IO.print output.printed

/-- Follows a procedure. -/
def follow {α : Type} (filter : LogFilter) : Procedure α → IO α
  | .done a => return a
  | .look next => do follow filter (next (← host))
  | .read path next => do follow filter (next (← file path))
  | .emit output next => do
    write filter output
    follow filter next

/-- Runs the program. -/
def run (arguments : List String) : IO UInt32 := do
  let (filter, warnings) := LogFilter.read (CommandLine.Settings.logFilter (← environment))
  for warning in warnings do
    IO.eprintln ("warning: " ++ warning ++ ", ignoring it")
  let exit ← follow filter (CommandLine.program arguments)
  IO.eprint exit.complaint
  return UInt32.ofNat exit.code

end Rulebook.Main

/-- The program. -/
def main (arguments : List String) : IO UInt32 := Rulebook.Main.run arguments
