import Rulebook.CommandLine.Invocation
import Rulebook.CommandLine.LogFilter
import Rulebook.Engine.Session

/-!
# The program

The program loads a configuration, runs its rules once and prints the document that they make.
Environment variables set what the command line does not: the security mode, the monitor, the filter
of the log and the number of characters of a document that the log shows.
-/

namespace Rulebook.CommandLine

/-- What the environment sets. -/
structure Settings where
  secure : Bool := true
  monitor : Bool := false
  deriving Repr, DecidableEq

namespace Settings

/-- The truth value that a text spells out. -/
def readBool? : String → Option Bool
  | "true" => some true
  | "false" => some false
  | _ => none

/-- The truth value of an environment variable. -/
def flag (environment : Fields String) (name : String) (default : Bool) : Bool :=
  ((environment.get? name).bind readBool?).getD default

/-- The settings of an environment. -/
def ofEnvironment (environment : Fields String) : Settings where
  secure := flag environment "DOCRULE_SECURE" true
  monitor := flag environment "DOCRULE_MONITOR" false

/-- The number that digits stand for, after an optional plus sign, if it fits into 64 bits. -/
def readCount? (text : String) : Option Nat :=
  let digits := match text.toList with
    | '+' :: rest => rest
    | cs => cs
  if digits.isEmpty || !digits.all Char.isDigit then none
  else
    let n := digits.foldl (fun n c => 10 * n + (c.toNat - '0'.toNat)) 0
    if n < 0x10000000000000000 then some n else none

/-- The number of characters of a document that the log shows. -/
def logLimit (environment : Fields String) : Nat :=
  ((environment.get? "DOCRULE_TRUNCATE_LOG_VALUE").bind readCount?).getD Action.defaultLimit

/-- The text of the log filter. -/
def logFilter (environment : Fields String) : String :=
  (environment.get? "DOCRULE_LOG").getD ((environment.get? "RUST_LOG").getD "warn")

end Settings

/-- How the program ends. -/
structure Exit where
  code : Nat := 0
  /-- What it writes to the error output at its end. -/
  complaint : String := ""
  deriving Repr, DecidableEq

/-- An operation that may fail with an error and the errors behind it, in words. -/
abbrev Job := ExceptT (List String) Session

namespace Job

/-- An operation of an engine, whose errors come after words on what was tried. -/
def ofSession {α : Type} (tried : List String) (work : Session (Except EngineError α)) : Job α :=
  ExceptT.mk do
    match ← work with
    | .ok a => return .ok a
    | .error err => return .error (tried ++ err.message :: err.causes)

end Job

/-- Prints a line. -/
def printLine (text : String) : Session Unit := Session.leave (.print (text ++ "\n"))

/-- Writes a line of the program itself to the log. -/
def note (level : Level) (text : String) : Session Unit :=
  Session.leave (.log level "docrule" text)

/-- Whether the program warns that the rules will not see an input. -/
def warnsAbout (input : String) : Bool := (Verbatim.read? input).isNone

/-- Runs the rules on the input of an invocation. -/
def feed (invocation : Invocation) : Job String := do
  if invocation.parameters.isEmpty then
    if warnsAbout invocation.input then
      note .warn "Input is not valid JSON, rules will pass it through untouched"
    Job.ofSession [] (Engine.executeJson invocation.input)
  else Job.ofSession [] (Engine.executeStrings invocation.parameters)

/-- Does what an invocation asks for with the text of the configuration file. -/
def job (invocation : Invocation) (settings : Settings) (limit : Nat) (text : String) :
    Job Unit := do
  if invocation.format = .yaml then Engine.setSource .yaml
  Engine.register "Log" (Action.log "document" limit)
  Job.ofSession ["Failed to load " ++ invocation.path] (Engine.configure text)
  if invocation.insecure || !settings.secure then
    note .warn "Running in open mode, host functions are available to rules"
    Engine.setMode .opened
  if invocation.monitor || settings.monitor then Engine.setMonitor Monitor.enable
  if invocation.showScript then
    printLine (← Job.ofSession [] Engine.scriptText)
  let _ ← feed invocation
  printLine (← Job.ofSession [] (return (← get).indented))
  let monitor := (← getThe Engine).monitor
  if !monitor.markers.isEmpty then Session.leave (.print monitor.report)

/-- The end of the program after a job. -/
def exitOf : Except Fault (Except (List String) Unit) → Exit
  | .ok (.ok ()) => {}
  | .ok (.error messages) => ⟨1, "Error: " ++ Json.joinWith ": " messages ++ "\n"⟩
  | .error _ => ⟨101, "The computation broke down\n"⟩

/-- Runs an invocation. -/
def run (invocation : Invocation) (settings : Settings) (limit : Nat) : Procedure Exit := do
  match ← Procedure.file invocation.path with
  | .text text =>
    let (result, _) ← (job invocation settings limit text).run.run {}
    return exitOf result
  | .unreadable reason =>
    return exitOf (.ok (.error ["Failed to read " ++ invocation.path, reason]))
  | .missing =>
    return exitOf (.ok (.error ["Failed to read " ++ invocation.path,
      "No such file or directory (os error 2)"]))

/-- The end of the program if there is no invocation. Help and the version are printed. -/
def refuse (err : ArgumentError) : Procedure Exit := do
  match err with
  | .refused .help =>
    Procedure.leave (.print err.message)
    return {}
  | .refused .version =>
    Procedure.leave (.print err.message)
    return {}
  | .refused (.usage _) => return ⟨2, err.message⟩
  | err => return ⟨2, err.message ++ "\n"⟩

/-- The program, given the arguments after its name. -/
def program (arguments : List String) : Procedure Exit := do
  Procedure.leave (.log .debug "docrule" "Starting docrule")
  let environment := (← Procedure.host).environment
  let settings := Settings.ofEnvironment environment
  Procedure.leave
    (.log .debug "docrule::settings" ("DOCRULE_SECURE = " ++ toString settings.secure))
  Procedure.leave
    (.log .debug "docrule::settings" ("DOCRULE_MONITOR = " ++ toString settings.monitor))
  match ← Invocation.ofArguments arguments with
  | .ok invocation => run invocation settings (Settings.logLimit environment)
  | .error err => refuse err

end Rulebook.CommandLine
