import Rulebook.Proofs.Script.Lexemes
import Rulebook.Proofs.Script.Phrases

/-!
# The outline of a configuration

What the statements and conditions of a configuration are, each read on its own at the place where the
compiled script has it. `outline` exists if every statement is a sequence of whole statements of the
language and every condition is one expression. It knows nothing of the text around them but the
places.
-/

namespace Rulebook

namespace Script

/-- The tokens of a text up to its last character, and what the lexer remembers there. -/
def Lexer.cut (evaluates : Bool) :
    (fuel : Nat) → Progress → List Char → Option (List (Token × Position) × Progress)
  | 0, _, _ => none
  | _, _, [] => none
  | _, progress, [_] => some ([], progress)
  | fuel + 1, progress, s =>
    match scanStep evaluates progress s with
    | .error _ => none
    | .ok (found, next, after) => do
      let (more, last) ← cut evaluates fuel next after
      return (found ++ more, last)

/-- A place between two parts of a script: what the lexer and the reader remember there. -/
structure Spot where
  progress : Lexer.Progress
  reading : Reading

namespace Spot

/-- The place after lexemes that the reader need not know of. -/
def past (spot : Spot) (lexemes : List Lexeme) : Spot :=
  { spot with progress := lexemes.foldl Lexer.Progress.after spot.progress }

/-- The whole statements that a text is. It follows a line break and ends with one. -/
def statements (evaluates : Bool) (spot : Spot) (text : String) : Option (List Stmt × Spot) := do
  let (tokens, progress) ←
    Lexer.cut evaluates (text.toList.length + 2) spot.progress ('\n' :: text.toList)
  let reader := Reader.sentences (Reader.readStmt (2 * tokens.length + 4)) (tokens.length + 1)
  let piece := spot.reading.withTokens (tokens ++ [Reader.mark progress.position])
  match progress.braces, reader.run piece with
  | [], .ok (found, reading) => some (found, ⟨progress, reading⟩)
  | _, _ => none

/-- The whole statements that some texts are, one after the other. -/
def allStatements (evaluates : Bool) (spot : Spot) : List String → Option (List Stmt × Spot)
  | [] => some ([], spot)
  | text :: rest => do
    let (found, spot) ← spot.statements evaluates text
    let (others, spot) ← spot.allStatements evaluates rest
    return (found ++ others, spot)

/-- The expression that a text is. A closing parenthesis follows it. -/
def expression (evaluates : Bool) (spot : Spot) (text : String) : Option (Expr × Spot) := do
  let (tokens, progress) ←
    Lexer.cut evaluates (text.toList.length + 2) spot.progress (text.toList ++ [')'])
  let reader := Reader.readExpr (2 * tokens.length + 4)
  let piece := spot.reading.withTokens (tokens ++ [(.sign ")", progress.position)])
  match progress.braces, reader.run piece with
  | [], .ok (found, reading) =>
    if reading.tokens.length = 1 then some (found, ⟨progress, reading⟩) else none
  | _, _ => none

end Spot
end Script

open Script

namespace Compilation

/-! ### The text around statements and conditions -/

/-- A word of the language. -/
def keyword (s : String) : Lexeme := .word s.toList (.word s)

/-- A name. -/
def named (s : String) : Lexeme := .word s.toList (.name s)

/-- A line break and the indentation of a depth. -/
def newLine (depth : Nat) : Lexeme := .gap ('\n' :: (indentation depth).toList)

/-- A space. -/
def space : Lexeme := .gap [' ']

/-- The head of the function of a script. -/
def headLine : List Lexeme :=
  [keyword "fn", space, named entryPoint, .sign '(', named "input_json", .sign ')', space,
    .sign '\x7b']

/-- The lines that read the input and the document. -/
def readingLines (document : String) : List Lexeme :=
  [newLine 1, keyword "let", space, named "input", space, .sign '=', space, .sign '(', .sign ')',
    .sign ';',
  newLine 1, keyword "try", space, .sign '\x7b', space, named "input", space, .sign '=', space,
    named "json_parse", .sign '(', named "input_json", .sign ')', .sign ';', space, .sign '\x7d',
    space, keyword "catch", space, .sign '(', named "err", .sign ')', space, .sign '\x7b', space,
    keyword "return", space, named "input_json", .sign ';', space, .sign '\x7d',
  newLine 1, keyword "let", space, named "document", space, .sign '=', space, named "json_parse",
    .sign '(', .text document, .sign ')', .sign ';']

/-- A title line. -/
def titleLine (title : String) : List Lexeme := [newLine 1, .remark (' ' :: title.toList)]

/-- What stands in front of the condition of a rule. -/
def ruleHead (label : String) : List Lexeme :=
  titleLine label ++ [newLine 1, keyword "if", space, named "truthy", .sign '(']

/-- What stands between the condition of a rule and its body. -/
def bodyHead : List Lexeme := [.sign ')', space, .sign '\x7b']

/-- What stands behind the body of a rule. -/
def ruleFoot : List Lexeme := [newLine 1, .sign '\x7d']

/-- The line that invokes an action. -/
def invocationLine (action : String) : List Lexeme :=
  [newLine 2, named "document", space, .sign '=', space, named action, .sign '(', named "document",
    .sign ',', space, named "input", .sign ')', .sign ';']

/-- The line that answers with the document. -/
def answerLine : List Lexeme :=
  [newLine 1, keyword "return", space, named "json_stringify", .sign '(', named "document",
    .sign ')', .sign ';']

/-- The script text of a statement. -/
def emitted (depth : Nat) (statement : String) : String :=
  closeStatement depth (Surface.toScript statement).toList

end Compilation

open Compilation

/-- The place of the token with a number, of lexemes that begin at a place. -/
def placeOf (start : Position) (lexemes : List Lexeme) (n : Nat) : Position :=
  ((tokensOf start lexemes)[n]?.map (·.2)).getD start

/-- The statements that read the input and the document, of lines that begin at a place. -/
def readingStmts (start : Position) (document : String) : List Stmt :=
  let place := placeOf start (readingLines document)
  [.declare "input" (some (.constant .unit (place 3))) false (place 1),
    .attempt
      [.assign (.name "input" (place 8)) none
        (.call "json_parse" [.name "input_json" (place 12)] (place 10)) (place 9)]
      (some "err") [.answer (some (.name "input_json" (place 22)))],
    .declare "document"
      (some (.call "json_parse" [.constant (.text document) (place 30)] (place 28))) false
      (place 26)]

/-- The statement that answers with the document, of a line that begins at a place. -/
def answerStmt (start : Position) : Stmt :=
  let place := placeOf start answerLine
  .answer (some (.call "json_stringify" [.name "document" (place 3)] (place 1)))

/-! ### Invocations -/

/-- The invocation of an action, with the places of what its line says. -/
structure Invocation where
  action : String
  target : Position
  sign : Position
  call : Position
  document : Position
  input : Position

namespace Invocation

/-- The invocation whose line begins at a place. -/
def ofLine (start : Position) (action : String) : Invocation :=
  let place := placeOf start (invocationLine action)
  ⟨action, place 0, place 1, place 2, place 4, place 6⟩

/-- What is known after the names of an invocation. -/
def noted (i : Invocation) (s : Reading) : Reading :=
  ((s.noting "document" i.target).noting "document" i.document).noting "input" i.input

/-- The statement that the line of an invocation is. -/
def stmt (i : Invocation) : Stmt :=
  .assign (.name "document" i.target) none
    (.call i.action [.name "document" i.document, .name "input" i.input] i.call) i.sign

end Invocation

/-- The invocations of some actions, unless the document is a constant. -/
def Script.Spot.invocations (spot : Spot) : List String → Option (List Invocation × Spot)
  | [] => some ([], spot)
  | action :: rest =>
    if spot.reading.locals.lookup "document" = some true then none
    else do
      let invocation := Invocation.ofLine spot.progress.position action
      let next := { spot.past (invocationLine action) with reading := invocation.noted spot.reading }
      let (others, spot) ← next.invocations rest
      return (invocation :: others, spot)

/-! ### Rules and configurations -/

/-- A rule as the language has it. -/
structure RuleOutline where
  /-- Where the condition is tested. -/
  place : Position
  condition : Expr
  body : List Stmt
  invocations : List Invocation

/-- The branch that a rule is. -/
def RuleOutline.branch (rule : RuleOutline) : Stmt :=
  .branch (.call "truthy" [rule.condition] rule.place)
    (rule.body ++ rule.invocations.map Invocation.stmt) []

/-- The outline of the rule at a place of the list of rules. -/
def Rule.outline (evaluates : Bool) (spot : Spot) (index : Nat) (rule : Rule) :
    Option (RuleOutline × Spot) := do
  let place := placeOf spot.progress.position (ruleHead (rule.label index)) 1
  let (condition, spot) ← (spot.past (ruleHead (rule.label index))).expression evaluates
    (conditionText rule.condition)
  let locals := spot.reading.locals
  let (body, spot) ← (spot.past bodyHead).allStatements evaluates (rule.body.map (emitted 2))
  let (invocations, spot) ← spot.invocations rule.actions
  return (⟨place, condition, body, invocations⟩,
    { spot.past ruleFoot with reading := { spot.reading with locals } })

/-- The outlines of the rules from the place `index` on. -/
def Rule.outlines (evaluates : Bool) (spot : Spot) (index : Nat) :
    List Rule → Option (List RuleOutline × Spot)
  | [] => some ([], spot)
  | rule :: rest => do
    let (first, spot) ← rule.outline evaluates spot index
    let (others, spot) ← Rule.outlines evaluates spot (index + 1) rest
    return (first :: others, spot)

/-- The statements of a group outside the rules, under its title. -/
def Script.Spot.group (evaluates : Bool) (spot : Spot) (title : String) (statements : List String) :
    Option (List Stmt × Spot) :=
  if statements.isEmpty then some ([], spot)
  else (spot.past (titleLine title)).allStatements evaluates (statements.map (emitted 1))

/-- A configuration as the language has it. -/
structure Outline where
  before : List Stmt
  rules : List RuleOutline
  after : List Stmt
  /-- Where the last line begins. -/
  answer : Position
  /-- The anonymous functions in the statements and conditions. -/
  functions : List Function

/-- The place after the lines that read the input and the document. -/
def Script.Spot.initial (document : String) : Spot where
  progress := (headLine ++ readingLines document).foldl Lexer.Progress.after {}
  reading := {
    tokens := []
    locals := [("document", false), ("input", false), ("input_json", false)]
    inFunction := true }

/-- The outline of a configuration that starts from the given document. -/
def Configuration.outline (evaluates : Bool) (configuration : Configuration) (document : String) :
    Option Outline := do
  let (before, spot) ←
    (Spot.initial document).group evaluates "pre-execution" configuration.before
  let (rules, spot) ← Rule.outlines evaluates spot 0 configuration.rules
  let (after, spot) ← spot.group evaluates "post-execution" configuration.after
  return ⟨before, rules, after, spot.progress.position, spot.reading.functions⟩

namespace Outline

/-- The statements between the first lines and the last one. -/
def inner (o : Outline) : List Stmt := o.before ++ o.rules.map RuleOutline.branch ++ o.after

/-- The body of the function that the script defines. -/
def body (o : Outline) (document : String) : List Stmt :=
  readingStmts (Position.start.afterAll (charsOf headLine)) document ++ o.inner ++
    [answerStmt o.answer]

/-- The script. -/
def program (o : Outline) (document : String) : Program where
  functions := o.functions ++ [⟨entryPoint, ["input_json"], o.body document⟩]
  statements := []

end Outline
end Rulebook
