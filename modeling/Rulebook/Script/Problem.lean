import Rulebook.Script.Datum
import Rulebook.Script.Token

/-!
# Errors of running scripts

A problem is what went wrong, an error adds the place. A script can catch errors: a thrown value is
handed on as it is, any other problem as a map that describes it.
-/

namespace Rulebook.Script

/-- What went wrong. -/
inductive Problem where
  | thrown (value : Datum)
  | unknownName (name : String)
  | unknownFunction (name : String) (argumentTypes : List String)
  | arithmetic (message : String)
  | listBounds (length : Nat) (index : Int)
  | textBounds (length : Nat) (index : Int)
  | bitBounds (index : Int)
  | noMember (name typeName : String)
  | notIndexed (typeName : String)
  | notIterable
  | kind (expected actual : String)
  | outputKind (expected actual : String)
  | unknownModule (path : String)
  | malformed (problem : SyntaxProblem)
  | constant (name : String)
  /-- A method that may change its subject was called on a constant. -/
  | constantSubject (method : String)
  | noSubject
  | tooManyCalls

namespace Problem

/-- The name of a problem, as scripts see it. -/
def name : Problem → String
  | thrown _ => "ErrorRuntime"
  | unknownName _ => "ErrorVariableNotFound"
  | unknownFunction _ _ => "ErrorFunctionNotFound"
  | arithmetic _ => "ErrorArithmetic"
  | listBounds _ _ => "ErrorArrayBounds"
  | textBounds _ _ => "ErrorStringBounds"
  | bitBounds _ => "ErrorBitFieldBounds"
  | noMember _ _ => "ErrorDotExpr"
  | notIndexed _ => "ErrorIndexingType"
  | notIterable => "ErrorFor"
  | kind _ _ => "ErrorMismatchDataType"
  | outputKind _ _ => "ErrorMismatchOutputType"
  | unknownModule _ => "ErrorModuleNotFound"
  | malformed _ => "ErrorParsing"
  | constant _ => "ErrorAssignmentToConstant"
  | constantSubject _ => "ErrorNonPureMethodCallOnConstant"
  | noSubject => "ErrorUnboundThis"
  | tooManyCalls => "ErrorStackOverflow"

/-- A count of things in words. -/
def counted (n : Nat) (thing : String) : String :=
  if n = 1 then "only 1 " ++ thing else "only " ++ toString n ++ " " ++ thing ++ "s"

/-- The wording of a problem. -/
def message : Problem → String
  | thrown value =>
    if value.isUnit then "Runtime error" else "Runtime error: " ++ value.display
  | unknownName name => "Variable not found: " ++ name
  | unknownFunction name types =>
    "Function not found: " ++ name ++ " (" ++ Json.joinWith ", " types ++ ")"
  | arithmetic message => message
  | listBounds 0 index => "Array index " ++ toString index ++ " out of bounds: array is empty"
  | listBounds length index =>
    "Array index " ++ toString index ++ " out of bounds: " ++ counted length "element" ++
      " in array"
  | textBounds 0 index => "String index " ++ toString index ++ " out of bounds: string is empty"
  | textBounds length index =>
    "String index " ++ toString index ++ " out of bounds: " ++ counted length "character" ++
      " in string"
  | bitBounds index =>
    "Bit-field index " ++ toString index ++ " out of bounds: only 64 bits in bit-field"
  | noMember name typeName =>
    "Unknown property '" ++ name ++ "' - a getter is not registered for type '" ++ typeName ++ "'"
  | notIndexed typeName => "Indexer unavailable: " ++ typeName
  | notIterable => "For loop expects iterable type"
  | kind expected actual =>
    "Data type incorrect: " ++ actual ++ " (expecting " ++ expected ++ ")"
  | outputKind expected actual =>
    "Output type incorrect: " ++ actual ++ " (expecting " ++ expected ++ ")"
  | unknownModule path => "Module not found: " ++ path
  | malformed problem => "Syntax error: " ++ problem.message
  | constant name => "Cannot modify constant: " ++ name
  | constantSubject method => "Non-pure method '" ++ method ++ "' cannot be called on constant"
  | noSubject => "'this' not bound"
  | tooManyCalls => "Stack overflow"

/-- Whether the problem ends the script: it cannot be caught, and its place is that of the outermost
call that it left. -/
def isFatal : Problem → Bool
  | malformed _ => true
  | tooManyCalls => true
  | _ => false

/-- The particulars of a problem, as scripts see them. -/
def particulars : Problem → List (String × Datum)
  | unknownName name => [("variable", .text name)]
  | constant name => [("variable", .text name)]
  | constantSubject method => [("function", .text method)]
  | unknownFunction name types =>
    [("function", .text (name ++ " (" ++ Json.joinWith ", " types ++ ")"))]
  | unknownModule path => [("module", .text path)]
  | noMember name typeName => [("property", .text ((noMember name typeName).message))]
  | listBounds length index => [("length", .ofNat length), ("index", .int (Int64.ofInt index))]
  | textBounds length index => [("length", .ofNat length), ("index", .int (Int64.ofInt index))]
  | bitBounds index => [("length", .ofNat 64), ("index", .int (Int64.ofInt index))]
  | kind expected actual => [("requested", .text expected), ("actual", .text actual)]
  | outputKind expected actual => [("requested", .text expected), ("actual", .text actual)]
  | notIndexed typeName => [("type", .text typeName)]
  | arithmetic message => [("message", .text message)]
  | _ => []

end Problem

/-- An error of running a script. -/
structure Error where
  problem : Problem
  position : Option Position := none
  /-- Whether the error has left a function of the script. -/
  leftCall : Bool := false

namespace Error

/-- The wording of an error. -/
def message (err : Error) : String :=
  match err.position with
  | some position => err.problem.message ++ " (" ++ position.text ++ ")"
  | none => err.problem.message

/-- The error as it leaves a function that was called at a place. -/
def leaving (err : Error) (call : Option Position) : Error :=
  if err.problem.isFatal then { err with position := call } else { err with leftCall := true }

/-- Whether the error is a bare `throw` of the statements at hand, which raises a caught error
again. -/
def isRethrow (err : Error) : Bool :=
  !err.leftCall &&
    match err.problem with
    | .thrown value => value.isUnit
    | _ => false

/-- The error as a `throw` at a place raises it again. -/
def rethrown (err : Error) (position : Option Position) : Error :=
  if err.leftCall then err else { err with position }

/-- The value that a script catches. -/
def caught (err : Error) : Datum :=
  match err.problem with
  | .thrown value => value
  | problem =>
    let place : List (String × Datum) :=
      match err.position with
      | some p => [("line", .ofNat p.line), ("position", .ofNat p.column)]
      | none => []
    .map (Fields.sort
      (("message", .text problem.message) :: place ++ ("error", .text problem.name) ::
        problem.particulars))

end Error
end Rulebook.Script
