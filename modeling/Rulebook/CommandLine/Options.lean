import Rulebook.Text.Quoted
import Rulebook.Json.Printer

/-!
# Options

The grammar of command lines. An option has a long name and maybe a letter; letters can be joined,
and a value follows its option as the next argument, after an equals sign, or right after the
letter. Arguments that are no options, and all arguments after two dashes, are operands.
`Given.read` takes a command line apart from left to right, so that a request for help counts if
nothing before it is wrong.
-/

namespace Rulebook.CommandLine

/-- What an option takes. -/
inductive Taking where
  /-- No value; the option may be given once. -/
  | nothing
  /-- One value, from a list of choices unless that is empty; the option may be given once. -/
  | once (choices : List String)
  /-- A value each time. -/
  | often

/-- An option. -/
structure OptionSpec where
  name : String
  letter : Option Char := none
  takes : Taking := .nothing
  help : String

/-- Why a command line is not followed. -/
inductive Refusal where
  | help
  | version
  | usage (message : String)
  deriving Repr, DecidableEq

/-- What a command line gives. -/
structure Given where
  /-- The options with their values, in order. -/
  options : List (String × String) := []
  operands : List String := []
  deriving Repr, DecidableEq

namespace OptionSpec

/-- Whether the option takes a value. -/
def takesValue (spec : OptionSpec) : Bool :=
  match spec.takes with
  | .nothing => false
  | _ => true

/-- How messages show an option. -/
def shown (spec : OptionSpec) : String :=
  "--" ++ spec.name ++ (if spec.takesValue then " <" ++ spec.name ++ ">" else "")

end OptionSpec

namespace Given

/-- Whether an option is given. -/
def has (given : Given) (name : String) : Bool := given.options.any (·.1 == name)

/-- The values of an option. -/
def values (given : Given) (name : String) : List String :=
  given.options.filterMap fun (n, value) => if n = name then some value else none

/-- Adds an option. -/
def add (given : Given) (spec : OptionSpec) (value : String) : Except Refusal Given :=
  let added : Given := { given with options := given.options ++ [(spec.name, value)] }
  let repeated := given.has spec.name
  let again := "the argument '" ++ spec.shown ++ "' cannot be used multiple times"
  match spec.name, spec.takes with
  | "help", _ => .error .help
  | "version", _ => .error .version
  | _, .nothing => if repeated then .error (.usage again) else .ok added
  | _, .once choices =>
    if repeated then .error (.usage again)
    else if choices.isEmpty || choices.contains value then .ok added
    else .error (.usage ("invalid value '" ++ value ++ "' for '" ++ spec.shown ++ "'"))
  | _, .often => .ok added

/-- What is wrong with an argument that fits nowhere. -/
def unexpected (argument : String) : Refusal :=
  .usage ("unexpected argument '" ++ argument ++ "' found")

/-- Adds an operand. Only one is known. -/
def addOperand (given : Given) (operand : String) : Except Refusal Given :=
  if given.operands.isEmpty then .ok { given with operands := [operand] }
  else .error (unexpected operand)

/-- Adds the option that an argument spells out, without its dashes. An option that still lacks its
value is handed on. -/
def addLong (specs : List OptionSpec) (given : Given) (argument : List Char) :
    Except Refusal (Given × Option OptionSpec) :=
  let name := String.ofList (argument.takeWhile (· ≠ '='))
  match specs.find? (·.name == name), argument.dropWhile (· ≠ '=') with
  | none, _ => .error (unexpected ("--" ++ name))
  | some spec, [] =>
    if spec.takesValue then .ok (given, some spec)
    else (given.add spec "").map fun given => (given, none)
  | some spec, _ :: value =>
    if spec.takesValue then
      (given.add spec (String.ofList value)).map fun given => (given, none)
    else .error (.usage
      ("unexpected value '" ++ String.ofList value ++ "' for '--" ++ name ++ "' found"))

/-- Adds the options that joined letters stand for. An option that still lacks its value is handed
on. -/
def addLetters (specs : List OptionSpec) (given : Given) :
    List Char → Except Refusal (Given × Option OptionSpec)
  | [] => .ok (given, none)
  | c :: rest =>
    match specs.find? (·.letter == some c), rest with
    | none, _ => .error (unexpected ("-" ++ c.toString))
    | some spec, rest =>
      if !spec.takesValue then
        match given.add spec "" with
        | .ok given => addLetters specs given rest
        | .error refusal => .error refusal
      else
        match rest with
        | [] => .ok (given, some spec)
        | '=' :: value => (given.add spec (String.ofList value)).map fun given => (given, none)
        | value => (given.add spec (String.ofList value)).map fun given => (given, none)

/-- What is wrong if a value is missing. -/
def missingValue (spec : OptionSpec) : Refusal :=
  .usage ("a value is required for '" ++ spec.shown ++ "' but none was supplied")

/-- Takes arguments apart. A value may be due for the option before them. -/
def readFrom (specs : List OptionSpec) (given : Given) (due : Option OptionSpec) :
    List String → Except Refusal Given
  | [] =>
    match due with
    | some spec => .error (missingValue spec)
    | none => .ok given
  | argument :: rest =>
    match due, argument.toList with
    | none, ['-', '-'] => rest.foldlM addOperand given
    | none, '-' :: '-' :: long =>
      match addLong specs given long with
      | .ok (given, due) => readFrom specs given due rest
      | .error refusal => .error refusal
    | none, '-' :: c :: letters =>
      match addLetters specs given (c :: letters) with
      | .ok (given, due) => readFrom specs given due rest
      | .error refusal => .error refusal
    | some spec, '-' :: _ :: _ => .error (missingValue spec)
    | some spec, _ =>
      match given.add spec argument with
      | .ok given => readFrom specs given none rest
      | .error refusal => .error refusal
    | none, _ =>
      match given.addOperand argument with
      | .ok given => readFrom specs given none rest
      | .error refusal => .error refusal

/-- Takes a command line apart. -/
def read (specs : List OptionSpec) (arguments : List String) : Except Refusal Given :=
  readFrom specs {} none arguments

end Given
end Rulebook.CommandLine
