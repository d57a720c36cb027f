import Rulebook.Calendar
import Rulebook.Json.Printer
import Rulebook.Output
import Rulebook.Pattern.Reader
import Rulebook.Pattern.Search
import Rulebook.Text.Class

/-!
# Log filters

A filter says which log records are shown. Its text is a list of directives with commas between
them: a level for all records, a target whose records are all shown, or both with an equals sign
between them; a pattern for the messages may follow after a slash. The directive with the longest
target that begins the target of a record decides about it.
-/

namespace Rulebook

/-- The least important level that is shown for the targets that begin with a text. -/
structure LogDirective where
  target : Option String
  /-- The rank of the level; zero shows nothing. -/
  rank : Nat
  deriving Repr, DecidableEq

/-- A filter for log records. -/
structure LogFilter where
  directives : List LogDirective
  pattern : Option Pattern := none

namespace LogFilter

/-- The rank of the level of a name. -/
def rankOf? (name : String) : Option Nat :=
  match name.map Char.toLower with
  | "off" => some 0
  | "error" => some Level.error.rank
  | "warn" => some Level.warn.rank
  | "info" => some Level.info.rank
  | "debug" => some Level.debug.rank
  | "trace" => some Level.trace.rank
  | _ => none

/-- A text without the blanks around it. -/
def trimmed (s : String) : String := String.ofList (Text.trim s.toList)

/-- The directive that a text stands for, or the part of it that is wrong. -/
def readDirective (text : String) : Except String LogDirective :=
  match text.splitOn "=" with
  | [part] =>
    match rankOf? part with
    | some rank => .ok ⟨none, rank⟩
    | none => .ok ⟨some part, Level.trace.rank⟩
  | [target, level] =>
    if (trimmed level).isEmpty then .ok ⟨some target, Level.trace.rank⟩
    else
      match rankOf? (trimmed level) with
      | some rank => .ok ⟨some target, rank⟩
      | none => .error (trimmed level)
  | _ => .error text

/-- The directives with one more, in the place of an earlier one for the same target. -/
def insert (directives : List LogDirective) (directive : LogDirective) : List LogDirective :=
  if directives.any (·.target == directive.target) then
    directives.map fun d => if d.target == directive.target then directive else d
  else directives ++ [directive]

/-- The directives and the warnings that texts give. -/
def readDirectives : List String → List LogDirective × List String
  | [] => ([], [])
  | text :: rest =>
    let (directives, warnings) := readDirectives rest
    if text.isEmpty then (directives, warnings)
    else
      match readDirective text with
      | .ok directive => (directive :: directives, warnings)
      | .error part => (directives, ("invalid logging spec '" ++ part ++ "'") :: warnings)

/-- The length of the target of a directive; none comes before all others. -/
def reach (directive : LogDirective) : Nat :=
  match directive.target with
  | some target => target.utf8ByteSize + 1
  | none => 0

/-- The directives in the order of the lengths of their targets. Without any, errors are shown. -/
def arranged (directives : List LogDirective) : List LogDirective :=
  if directives.isEmpty then [⟨none, Level.error.rank⟩]
  else (directives.foldl insert []).mergeSort fun a b => reach a ≤ reach b

/-- The filter that a text stands for, and the warnings about its parts that are not understood. -/
def read (text : String) : LogFilter × List String :=
  match text.splitOn "/" with
  | [] => (⟨arranged [], none⟩, [])
  | directives :: patterns =>
    if 1 < patterns.length then
      (⟨arranged [], none⟩, ["invalid logging spec '" ++ text ++ "' (too many '/'s)"])
    else
      let (directives, warnings) := readDirectives ((directives.splitOn ",").map trimmed)
      match patterns with
      | [] => (⟨arranged directives, none⟩, warnings)
      | pattern :: _ =>
        match Pattern.read? pattern with
        | some pattern => (⟨arranged directives, some pattern⟩, warnings)
        | none => (⟨arranged directives, none⟩, warnings ++ ["invalid regex filter"])

/-- Whether a directive is about records of a target. -/
def concerns (directive : LogDirective) (target : String) : Bool :=
  match directive.target with
  | some start => start.toList.isPrefixOf target.toList
  | none => true

/-- Whether a record is shown. -/
def admits (filter : LogFilter) (record : LogRecord) : Bool :=
  (match filter.directives.reverse.find? (concerns · record.target) with
    | some directive => record.level.rank ≤ directive.rank
    | none => false) &&
  (match filter.pattern with
    | some pattern => pattern.foundIn record.message
    | none => true)

end LogFilter

namespace LogRecord

/-- The line of a record at a time. Further lines of its message are indented. -/
def line (record : LogRecord) (time : Nat) : String :=
  let level := record.level.name
  "[" ++ Calendar.secondText time ++ " " ++ level ++
    String.ofList (List.replicate (5 - level.length) ' ') ++ " " ++ record.target ++ "] " ++
    Json.joinWith "\n    " (record.message.splitOn "\n") ++ "\n"

end LogRecord
end Rulebook
