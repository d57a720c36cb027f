import Rulebook.Configuration.Basic
import Rulebook.Surface.Image
import Rulebook.Registry
import Rulebook.Text.Quoted

/-!
# Compilation

The script of a configuration. It defines one function that reads its input and the document, runs
the statements and the rules in their order and returns the text of the document. Compilation checks
the action names of the rules first and fails at the first one that is no name or is not registered;
the text itself, `scriptText`, does not depend on the registry.
-/

namespace Rulebook

/-- Why a configuration has no script. The rule is given by its label. -/
inductive CompileError where
  | unregisteredAction (rule action : String)
  | invalidActionName (rule action : String)
  deriving Repr, DecidableEq

/-- The wording of the error. -/
def CompileError.message : CompileError → String
  | unregisteredAction rule action => rule ++ " references unregistered action " ++ action
  | invalidActionName rule action =>
    rule ++ " references invalid action name " ++ Text.quoted action

namespace Compilation

/-- The name of the function that a script defines. -/
def entryPoint : String := "execute_rules"

/-- A quoted JSON text with the two escapes that scripts do not know spelled as code points. A
backslash takes the character after it along. -/
def respell : List Char → List Char
  | [] => []
  | '\\' :: 'b' :: rest => '\\' :: 'u' :: '0' :: '0' :: '0' :: '8' :: respell rest
  | '\\' :: 'f' :: rest => '\\' :: 'u' :: '0' :: '0' :: '0' :: 'C' :: respell rest
  | '\\' :: c :: rest => '\\' :: c :: respell rest
  | c :: rest => c :: respell rest

/-- A text as a script literal. -/
def literal (text : String) : String := String.ofList (respell (Json.quote text).toList)

/-- The indentation of a depth. -/
def indentation (depth : Nat) : String := String.ofList (List.replicate (4 * depth) ' ')

/-- The last line of a code, without the line break that may end it. -/
def lastLine (code : List Char) : List Char :=
  let reversed := code.reverse
  let reversed := if reversed.head? = some '\n' then reversed.drop 1 else reversed
  (reversed.takeWhile (· ≠ '\n')).reverse

/-- Whether a line holds two slashes in a row. -/
def hasSlashes : List Char → Bool
  | '/' :: '/' :: _ => true
  | _ :: rest => hasSlashes rest
  | [] => false

/-- The code, with a line break if its last line may end in a line comment. -/
def closeLine (code : List Char) : List Char :=
  if hasSlashes (lastLine code) then code ++ ['\n'] else code

/-- The script text of a statement that is in script form already: nothing if it is blank, and
otherwise a line that ends the statement. -/
def closeStatement (depth : Nat) (statement : List Char) : String :=
  let statement := Text.trim statement
  match statement.getLast? with
  | none => ""
  | some last =>
    if last = ';' ∨ last = '\x7d' then
      indentation depth ++ String.ofList statement ++ "\n"
    else indentation depth ++ String.ofList (closeLine statement) ++ ";\n"

/-- The script text of statements. -/
def statementsText (depth : Nat) (statements : List String) : String :=
  String.join (statements.map fun statement =>
    closeStatement depth (Surface.toScript statement).toList)

/-- The line that invokes an action. -/
def invocation (action : String) : String :=
  indentation 2 ++ "document = " ++ action ++ "(document, input);\n"

/-- The script form of a condition. -/
def conditionText (condition : String) : String :=
  let trimmed := String.ofList (Text.trim condition.toList)
  String.ofList (closeLine (Surface.toScript trimmed).toList)

/-- The script text of the rule at a place of the list of rules. -/
def ruleText (index : Nat) (rule : Rule) : String :=
  indentation 1 ++ "// " ++ rule.label index ++ "\n" ++
  indentation 1 ++ "if truthy(" ++ conditionText rule.condition ++ ") \x7b\n" ++
  statementsText 2 rule.body ++
  String.join (rule.actions.map invocation) ++
  indentation 1 ++ "\x7d\n"

/-- The script text of the rules from the place `index` on. -/
def rulesText (index : Nat) : List Rule → String
  | [] => ""
  | rule :: rest => ruleText index rule ++ rulesText (index + 1) rest

/-- The script text of a group of statements outside the rules, under a title. -/
def groupText (title : String) (statements : List String) : String :=
  if statements.isEmpty then ""
  else indentation 1 ++ "// " ++ title ++ "\n" ++ statementsText 1 statements

/-- The lines that every script begins with. -/
def opening (document : String) : String :=
  "fn " ++ entryPoint ++ "(input_json) \x7b\n" ++
  indentation 1 ++ "let input = ();\n" ++
  indentation 1 ++ "try \x7b input = json_parse(input_json); \x7d catch (err) " ++
    "\x7b return input_json; \x7d\n" ++
  indentation 1 ++ "let document = json_parse(" ++ literal document ++ ");\n"

/-- The lines that every script ends with. -/
def closing : String := indentation 1 ++ "return json_stringify(document);\n\x7d\n"

/-- The script of a configuration that starts from the given document. -/
def scriptText (configuration : Configuration) (document : String) : String :=
  opening document ++
  groupText "pre-execution" configuration.before ++
  rulesText 0 configuration.rules ++
  groupText "post-execution" configuration.after ++
  closing

/-- A name that can stand in a script: letters, digits and underscores of which the first is no
digit, all ASCII. -/
def isName (name : String) : Bool :=
  match name.toList with
  | [] => false
  | c :: rest => (c.isAlpha || c == '_') && rest.all fun c => c.isAlphanum || c == '_'

/-- What is wrong with the first bad one of the action names of a rule. -/
def badAction? (registered : String → Bool) (label : String) : List String → Option CompileError
  | [] => none
  | action :: rest =>
    if !isName action then some (.invalidActionName label action)
    else if !registered action then some (.unregisteredAction label action)
    else badAction? registered label rest

/-- What is wrong with the first bad action name of the rules from the place `index` on. -/
def badReference? (registered : String → Bool) (index : Nat) : List Rule → Option CompileError
  | [] => none
  | rule :: rest =>
    (badAction? registered (rule.label index) rule.actions).or
      (badReference? registered (index + 1) rest)

end Compilation

/-- The script of a configuration that starts from the given document and invokes registered actions
only. -/
def compileWithDocument (configuration : Configuration) (document : String) (registry : Registry) :
    Except CompileError String :=
  match Compilation.badReference? registry.contains 0 configuration.rules with
  | some err => .error err
  | none => .ok (Compilation.scriptText configuration document)

/-- The script of a configuration that starts from its own document. -/
def compile (configuration : Configuration) (registry : Registry) : Except CompileError String :=
  compileWithDocument configuration configuration.document registry

end Rulebook
