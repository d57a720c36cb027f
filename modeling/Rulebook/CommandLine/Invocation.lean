import Rulebook.CommandLine.Options
import Rulebook.Procedure

/-!
# Invocations

What a command line asks for: a configuration file, the input for its rules, and how to run them.
The file has to exist when the command line is read.
-/

namespace Rulebook.CommandLine

/-- The format of a configuration file. -/
inductive Format where
  | json
  | yaml
  deriving Repr, DecidableEq

namespace Format

/-- The format that goes by a name. -/
def ofName (name : String) : Format := if name = "yaml" || name = "yml" then yaml else json

/-- The format of a file, by what follows the last dot of its path. -/
def ofPath (path : String) : Format :=
  ofName (String.ofList (path.toList.reverse.takeWhile (· ≠ '.')).reverse)

end Format

/-- What a command line asks for. -/
structure Invocation where
  path : String
  format : Format
  /-- The JSON text of the input. -/
  input : String := "\x7b\x7d"
  /-- The parameters that are given one by one. -/
  parameters : Fields String := []
  insecure : Bool := false
  monitor : Bool := false
  showScript : Bool := false
  deriving Repr, DecidableEq

/-- Why there is no invocation. -/
inductive ArgumentError where
  | notFound (path : String)
  | invalidParameter (text : String)
  | refused (refusal : Refusal)
  deriving Repr, DecidableEq

/-- The options of the program. -/
def options : List OptionSpec :=
  [{ name := "input", letter := some 'i', takes := .once []
     help := "JSON input passed to the rules [default: \x7b\x7d]" },
   { name := "param", letter := some 'p', takes := .often
     help := "Input parameter as key=value, coerced to its declared type" },
   { name := "insecure", help := "Allow host functions such as env() and now()" },
   { name := "monitor", letter := some 'm', help := "Print performance markers" },
   { name := "show-script", help := "Print the compiled script before running it" },
   { name := "format", letter := some 'f', takes := .once ["json", "yaml"]
     help := "Configuration format, taken from the file extension when omitted " ++
       "[possible values: json, yaml]" },
   { name := "help", letter := some 'h', help := "Print help" },
   { name := "version", letter := some 'V', help := "Print version" }]

/-- The line that sums up how the program is used. -/
def usageLine : String := "Usage: docrule [OPTIONS] <config>"

/-- The line of an option in the help text. -/
def optionLine (spec : OptionSpec) : String :=
  let letter := match spec.letter with
    | some c => "-" ++ c.toString ++ ", "
    | none => "    "
  let left := "  " ++ letter ++ spec.shown
  left ++ String.ofList (List.replicate (25 - left.length) ' ') ++ spec.help ++ "\n"

/-- The help text. -/
def helpText : String :=
  "Runs a rule configuration against JSON input and prints the resulting document\n\n" ++
  usageLine ++ "\n\nArguments:\n" ++
  "  <config>  Rule configuration file (.json, .yaml or .yml)\n\nOptions:\n" ++
  String.join (options.map optionLine)

namespace ArgumentError

/-- The wording of an error. -/
def message : ArgumentError → String
  | notFound path => "Configuration not found: " ++ path
  | invalidParameter text => "Invalid parameter " ++ Text.quoted text ++ ", expected key=value"
  | refused .help => helpText
  | refused .version => "docrule 0.1.0\n"
  | refused (.usage message) =>
    "error: " ++ message ++ "\n\n" ++ usageLine ++ "\n\nFor more information, try '--help'.\n"

end ArgumentError

namespace Invocation

/-- The name and the text of a parameter, with an equals sign between them. -/
def parameterOf (text : String) : Except ArgumentError (String × String) :=
  match text.toList.takeWhile (· ≠ '='), text.toList.dropWhile (· ≠ '=') with
  | c :: name, _ :: value => .ok (String.ofList (c :: name), String.ofList value)
  | _, _ => .error (.invalidParameter text)

/-- The path that a command line gives, if what it gives fits together. -/
def pathOf (given : Given) : Except ArgumentError String :=
  if given.has "input" && given.has "param" then
    .error (.refused (.usage
      "the argument '--input <input>' cannot be used with '--param <param>'"))
  else
    match given.operands with
    | path :: _ => .ok path
    | [] => .error (.refused (.usage
      "the following required arguments were not provided:\n  <config>"))

/-- The invocation that a command line gives for a path. -/
def ofGiven (given : Given) (path : String) : Except ArgumentError Invocation := do
  let parameters ← (given.values "param").mapM parameterOf
  return {
    path
    format := match (given.values "format").head? with
      | some name => .ofName name
      | none => .ofPath path
    input := ((given.values "input").head?).getD "\x7b\x7d"
    parameters := Fields.ofPairs parameters
    insecure := given.has "insecure"
    monitor := given.has "monitor"
    showScript := given.has "show-script" }

/-- The invocation of a command line. -/
def ofArguments (arguments : List String) : Procedure (Except ArgumentError Invocation) := do
  match (Given.read options arguments).mapError .refused with
  | .error err => return .error err
  | .ok given =>
    match pathOf given with
    | .error err => return .error err
    | .ok path =>
      match ← Procedure.file path with
      | .missing => return .error (.notFound path)
      | _ => return ofGiven given path

end Invocation
end Rulebook.CommandLine
