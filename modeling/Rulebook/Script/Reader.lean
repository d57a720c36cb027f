import Rulebook.Script.Lexer
import Rulebook.Script.Operator

/-!
# Reading scripts

The grammar of scripts, by recursive descent. The readers for composite expressions and statements
take the readers for their parts as arguments; `readExpr` and `readStmt` at the end tie them
together. While reading, the names in scope are known, so that assignments to constants are refused
and an anonymous function learns which variables it captures.
-/

namespace Rulebook.Script

/-- The state of reading. -/
structure Reading where
  /-- The tokens to come. -/
  tokens : List (Token × Position)
  /-- The names in scope, the innermost first, and whether each is a constant. -/
  locals : List (String × Bool) := []
  /-- The names used so far that are not in scope, in the order of their first use. -/
  unbound : List (String × Position) := []
  /-- The functions read so far. -/
  functions : List Function := []
  /-- The number of anonymous functions read so far. -/
  anonymous : Nat := 0
  inLoop : Bool := false
  inFunction : Bool := false

/-- A reader of a part of a script. -/
abbrev Reader := StateT Reading (Except SyntaxError)

namespace Reader

/-! ### Tokens -/

/-- The next token. -/
def peek : Reader (Option Token) := do return (← get).tokens.head?.map (·.1)

/-- The place of the next token. -/
def place : Reader (Option Position) := do return (← get).tokens.head?.map (·.2)

/-- The place of the next token, which is known to exist. -/
def position : Reader Position := do return ((← place).getD .start)

/-- Refuses the script at the next token. -/
def fail {α : Type} (problem : SyntaxProblem) : Reader α := do throw ⟨problem, ← place⟩

/-- Refuses the script at a place. -/
def failAt {α : Type} (problem : SyntaxProblem) (position : Option Position) : Reader α :=
  throw ⟨problem, position⟩

/-- Takes the next token. -/
def advance : Reader Unit := modify fun r => { r with tokens := r.tokens.drop 1 }

/-- Whether the next token is a sign. -/
def atSign (s : String) : Reader Bool := do
  match ← peek with
  | some (.sign t) => return t = s
  | _ => return false

/-- Takes the next token if it is the sign. -/
def accept (s : String) : Reader Bool := do
  if ← atSign s then
    advance
    return true
  else return false

/-- Takes the sign, which has to come next. -/
def expect (s : String) : Reader Unit := do
  if ← accept s then return () else fail (.expected s)

/-- Takes the next token if it is the word. -/
def acceptWord (s : String) : Reader Bool := do
  match ← peek with
  | some (.word t) =>
    if t = s then
      advance
      return true
    else return false
  | _ => return false

/-- Takes a name that a script may choose. -/
def readName : Reader String := do
  match ← peek with
  | some (.name s) =>
    advance
    return s
  | some (.reserved s) => fail (.reserved s)
  | _ => fail (.expected "a name")

/-! ### Names in scope -/

/-- Brings a name into scope. -/
def bindName (name : String) (constant : Bool) : Reader Unit :=
  modify fun r => { r with locals := (name, constant) :: r.locals }

/-- Notes the use of a name. -/
def noteUse (name : String) (position : Position) : Reader Unit :=
  modify fun r =>
    if (r.locals.lookup name).isSome || (r.unbound.lookup name).isSome then r
    else { r with unbound := r.unbound ++ [(name, position)] }

/-- Reads something whose names go out of scope at its end. -/
def inScope {α : Type} (read : Reader α) : Reader α := do
  let locals := (← get).locals
  let result ← read
  modify fun r => { r with locals }
  return result

/-- Reads the body of a loop. -/
def inLoop {α : Type} (read : Reader α) : Reader α := do
  let outer := (← get).inLoop
  modify fun r => { r with inLoop := true }
  let result ← read
  modify fun r => { r with inLoop := outer }
  return result

/-- Reads the body of a function with the given names in scope; the result comes with the names that
the body uses but does not have in scope. -/
def inFunction {α : Type} (parameters : List String) (read : Reader α) :
    Reader (α × List (String × Position)) := do
  let outer ← get
  set { outer with
    locals := parameters.map (·, false), unbound := [], inLoop := false, inFunction := true }
  let result ← read
  let inner ← get
  set { inner with
    locals := outer.locals, unbound := outer.unbound, inLoop := outer.inLoop
    inFunction := outer.inFunction }
  return (result, inner.unbound)

/-! ### Lists -/

/-- Reads items with commas between them up to a closing sign; a comma may follow the last one. -/
def itemsUpTo {α : Type} (close : String) (item : Reader α) : (fuel : Nat) → Reader (List α)
  | 0 => fail .tooDeep
  | fuel + 1 => do
    if ← accept close then return []
    let first ← item
    if ← accept close then return [first]
    expect ","
    return first :: (← itemsUpTo close item fuel)

/-- Reads the items of a list whose opening sign was taken. -/
def items {α : Type} (close : String) (item : Reader α) : Reader (List α) := do
  itemsUpTo close item ((← get).tokens.length + 1)

/-- The first name that occurs twice. -/
def repeated? : List String → Option String
  | [] => none
  | name :: rest => if rest.contains name then some name else repeated? rest

/-- Refuses names that occur twice. -/
def checkDistinct (names : List String) : Reader Unit := do
  match repeated? names with
  | some name => fail (.duplicate name)
  | none => return ()

/-! ### Statements of a block -/

/-- Reads statements up to the brace that closes the block. -/
def statementsUpTo (stmt : Reader Stmt) : (fuel : Nat) → Reader (List Stmt)
  | 0 => fail .tooDeep
  | fuel + 1 => do
    if ← accept "\x7d" then return []
    match ← stmt with
    | .empty => statementsUpTo stmt fuel
    | statement =>
      if ← accept "\x7d" then return [statement]
      if !(← accept ";") && !statement.endsItself then fail (.expected ";")
      return statement :: (← statementsUpTo stmt fuel)

/-- Reads the statements of a block whose opening brace was taken. -/
def blockRest (stmt : Reader Stmt) : Reader (List Stmt) := do
  inScope (statementsUpTo stmt ((← get).tokens.length + 1))

/-- Reads a block. -/
def block (stmt : Reader Stmt) : Reader (List Stmt) := do
  expect "\x7b"
  blockRest stmt

/-! ### Expressions -/

/-- Reads the rest of a template literal after a piece of it. -/
def templateRest (stmt : Reader Stmt) : (fuel : Nat) → Reader (List Expr)
  | 0 => fail .tooDeep
  | fuel + 1 => do
    let place ← position
    match ← peek with
    | some (.piece s more) =>
      advance
      let text : List Expr := if s.isEmpty then [] else [.constant (.text s) place]
      if more then
        let body ← blockRest stmt
        return text ++ .statement (.block body) :: (← templateRest stmt fuel)
      else return text
    | _ => fail .unterminatedText

/-- Reads a template literal. Without interpolations it is a constant. -/
def template (stmt : Reader Stmt) : Reader Expr := do
  let place ← position
  let parts ← templateRest stmt ((← get).tokens.length + 1)
  match parts with
  | [] => return .constant (.text "") place
  | [.constant text _] => return .constant text place
  | parts => return .template parts place

/-- Reads a member of a map literal. -/
def mapMember (expr : Reader Expr) : Reader (String × Expr) := do
  let name ← match ← peek with
    | some (.name s) => pure s
    | some (.text s) => pure s
    | some (.piece s false) => pure s
    | some (.reserved s) => fail (.reserved s)
    | _ => fail (.expected "a property")
  advance
  expect ":"
  return (name, ← expr)

/-- Reads the arguments of a call whose opening parenthesis was taken. -/
def arguments (expr : Reader Expr) : Reader (List Expr) := items ")" expr

/-- Reads the parameters of an anonymous function. -/
def closureParameters : Reader (List String) := do
  if ← accept "||" then return []
  expect "|"
  let parameters ← items "|" readName
  checkDistinct parameters
  return parameters

/-- Reads an anonymous function. The variables that it captures become its first parameters. -/
def closure (stmt : Reader Stmt) : Reader Expr := do
  let place ← position
  let parameters ← closureParameters
  let (body, captured) ← inFunction parameters stmt
  let name := "anon$" ++ toString (← get).anonymous
  modify fun r => { r with
    anonymous := r.anonymous + 1
    functions := r.functions ++ [⟨name, captured.map (·.1) ++ parameters, [body]⟩] }
  captured.forM fun (name, position) => noteUse name position
  return .function name captured place

/-- Whether a word of the language can be called like a method. -/
def isMethodWord (s : String) : Bool :=
  s == "call" || s == "curry" || s == "type_of" || s == "is_shared"

/-- Reads the beginning of an expression, without links and operators. -/
def primary (expr : Reader Expr) (stmt : Reader Stmt) : Reader Expr := do
  let place ← position
  match ← peek with
  | some (.int n) => advance; return .constant (.int n) place
  | some (.float x) => advance; return .constant (.float x) place
  | some (.char c) => advance; return .constant (.char c) place
  | some (.text s) => advance; return .constant (.text s) place
  | some (.piece _ _) => template stmt
  | some (.word "true") => advance; return .constant (.bool true) place
  | some (.word "false") => advance; return .constant (.bool false) place
  | some (.word s) =>
    if ["if", "switch", "while", "loop", "do", "for"].contains s then return .statement (← stmt)
    else fail (.misplaced s)
  | some (.name s) =>
    advance
    if ← accept "(" then return .call s (← arguments expr) place
    else
      noteUse s place
      return .name s place
  | some (.reserved s) =>
    advance
    if s = "this" then
      if (← get).inFunction then return .subject place else failAt (.reserved s) place
    else if Token.functionWords.contains s && (← accept "(") then
      return .call s (← arguments expr) place
    else failAt (.reserved s) place
  | some (.sign "(") =>
    advance
    if ← accept ")" then return .constant .unit place
    else
      let inside ← expr
      expect ")"
      return inside
  | some (.sign "[") => advance; return .list (← items "]" expr) place
  | some (.sign "#\x7b") =>
    advance
    let members ← items "\x7d" (mapMember expr)
    checkDistinct (members.map (·.1))
    return .map members place
  | some (.sign "\x7b") => return .statement (← stmt)
  | some (.sign "|") => closure stmt
  | some (.sign "||") => closure stmt
  | _ => fail (.expected "an expression")

/-- Whether the kinds of a value and of an index, as far as they show, fit together. -/
def indexFits (root index : Expr) : Bool :=
  let rootIsPlain := match root with
    | .constant (.text _) _ => false
    | .constant (.int _) _ => false
    | .constant _ _ => true
    | .and _ _ => true
    | .or _ _ => true
    | _ => false
  match index with
  | .constant (.int _) _ => match root with
    | .map _ _ => false
    | _ => !rootIsPlain
  | .constant (.text _) _ => match root with
    | .list _ _ => false
    | .constant (.text _) _ => false
    | .template _ _ => false
    | _ => !rootIsPlain
  | .constant _ _ => false
  | .and _ _ => false
  | .or _ _ => false
  | _ => true

/-- Reads a link of a chain, if one comes next. -/
def link? (expr : Reader Expr) : Reader (Option Link) := do
  let member (optional : Bool) : Reader (Option Link) := do
    let place ← position
    match ← peek with
    | some (.name s) =>
      advance
      if ← accept "(" then return some (.method s (← arguments expr) optional place)
      else return some (.member s optional place)
    | some (.reserved s) =>
      advance
      if isMethodWord s && (← accept "(") then
        return some (.method s (← arguments expr) optional place)
      else failAt (.reserved s) place
    | _ => fail (.expected "a property")
  let item (optional : Bool) : Reader (Option Link) := do
    let index ← expr
    expect "]"
    return some (.item index optional ((index.position).getD .start))
  if ← accept "." then member false
  else if ← accept "?." then member true
  else if ← accept "[" then item false
  else if ← accept "?[" then item true
  else return none

/-- Reads the links that follow. -/
def links (expr : Reader Expr) : (fuel : Nat) → Reader (List Link)
  | 0 => return []
  | fuel + 1 => do
    match ← link? expr with
    | none => return []
    | some link => return link :: (← links expr fuel)

/-- The chain of a root and its links. -/
def chain (root : Expr) (links : List Link) : Reader Expr := do
  match links with
  | [] => return root
  | .item index _ _ :: _ =>
    if indexFits root index then return .chain root links else failAt .index index.position
  | links => return .chain root links

/-- Reads the signs in front of an operand. -/
def signsBefore : (fuel : Nat) → Reader (List (String × Position))
  | 0 => return []
  | fuel + 1 => do
    let place ← position
    match ← peek with
    | some (.sign s) =>
      if s = "-" || s = "+" || s = "!" then
        advance
        return (s, place) :: (← signsBefore fuel)
      else return []
    | _ => return []

/-- An operand with a sign in front of it. A minus sign in front of a number is part of it. -/
def signed (sign : String × Position) (operand : Expr) : Expr :=
  match sign.1, operand with
  | "-", .constant (.int n) _ =>
    if n = Int64.minValue then .constant (.float (-(Datum.floatOf n))) sign.2
    else .constant (.int (-n)) sign.2
  | "-", .constant (.float x) _ => .constant (.float (-x)) sign.2
  | "+", .constant (.int n) _ => .constant (.int n) sign.2
  | "+", .constant (.float x) _ => .constant (.float x) sign.2
  | _, _ => .apply sign.1 [operand] sign.2

/-- Reads an operand. -/
def operand (expr : Reader Expr) (stmt : Reader Stmt) : Reader Expr := do
  let count := (← get).tokens.length
  let signs ← signsBefore count
  let root ← primary expr stmt
  let operand ← chain root (← links expr count)
  return signs.foldr signed operand

/-- Reads operators with their right operands. -/
def rights (operand : Reader Expr) (pipe : Bool) : (fuel : Nat) → Reader (List Operator.Right)
  | 0 => return []
  | fuel + 1 => do
    let place ← position
    match ((← peek).bind Operator.ofToken?).filter fun s => pipe || s ≠ "|" with
    | none =>
      match ← peek with
      | some (.reserved s) => fail (.reserved s)
      | _ => return []
    | some operator =>
      advance
      let right ← operand
      return ⟨operator, place, right⟩ :: (← rights operand pipe fuel)

/-- Reads an expression; the sign `|` is an operator if `pipe` holds. -/
def expression (expr : Reader Expr) (stmt : Reader Stmt) (pipe : Bool) : Reader Expr := do
  let first ← operand expr stmt
  let rest ← rights (operand expr stmt) pipe ((← get).tokens.length)
  match Operator.tree first rest with
  | .ok tree => return tree
  | .error err => throw err

/-! ### Statements -/

/-- Reads a condition. -/
def condition (expr : Reader Expr) : Reader Expr := do
  if ← atSign "\x7b" then fail (.expected "a boolean expression")
  let condition ← expr
  if condition.isNoBoolean then failAt .notBoolean condition.position else return condition

/-- Reads the branches after `if`. -/
def branches (expr : Reader Expr) (stmt : Reader Stmt) : Reader Stmt := do
  let condition ← condition expr
  let yes ← block stmt
  if ← acceptWord "else" then
    match ← peek with
    | some (.word "if") => return .branch condition yes [← stmt]
    | _ => return .branch condition yes (← block stmt)
  else return .branch condition yes []

/-- The pattern that an expression is. -/
def casePattern? : Expr → Option CasePattern
  | .apply ".." [.constant (.int a) _, .constant (.int b) _] _ => some (.range a b false)
  | .apply "..=" [.constant (.int a) _, .constant (.int b) _] _ => some (.range a b true)
  | e => e.literal?.map .value

/-- Reads the patterns of a case, with bars between them. -/
def casePatterns (pattern : Reader Expr) : (fuel : Nat) → Reader (List CasePattern)
  | 0 => fail .tooDeep
  | fuel + 1 => do
    let place ← place
    match casePattern? (← pattern) with
    | none => failAt (.expected "a literal") place
    | some found =>
      if ← accept "|" then return found :: (← casePatterns pattern fuel) else return [found]

/-- Reads the statement of a case after its arrow, and the comma after it. -/
def caseBody (stmt : Reader Stmt) : Reader Stmt := do
  expect "=>"
  let body ← stmt
  if !(← accept ",") && !body.endsItself && !(← atSign "\x7d") then fail (.expected ",")
  return body

/-- Reads the cases of a `switch` up to its closing brace. The default case comes last. -/
def cases (expr pattern : Reader Expr) (stmt : Reader Stmt) :
    (fuel : Nat) → Reader (List Case × Option Stmt)
  | 0 => fail .tooDeep
  | fuel + 1 => do
    if ← accept "\x7d" then return ([], none)
    if ← acceptWord "_" then
      let body ← caseBody stmt
      if ← accept "\x7d" then return ([], some body) else fail .defaultCase
    let place ← position
    let patterns ← casePatterns pattern ((← get).tokens.length + 1)
    let guard ← if ← acceptWord "if" then condition expr else pure (.constant (.bool true) place)
    let body ← caseBody stmt
    let (rest, otherwise) ← cases expr pattern stmt fuel
    return (.mk patterns guard body :: rest, otherwise)

/-- Reads the names that a `for` loop binds: the item, and maybe a counter. -/
def loopNames : Reader (String × Option String) := do
  if ← accept "(" then
    let item ← readName
    expect ","
    let counter ← readName
    if counter = item then fail (.duplicate counter)
    expect ")"
    return (item, some counter)
  else return (← readName, none)

/-- Reads a `for` loop after its first word. -/
def forLoop (expr : Reader Expr) (stmt : Reader Stmt) : Reader Stmt := do
  let (item, counter) ← loopNames
  if !(← acceptWord "in") then fail (.expected "in")
  if ← atSign "\x7b" then fail (.expected "an iterable value")
  let source ← expr
  if source.isNoSource then failAt .notIterable source.position
  let body ← inScope do
    bindName item false
    counter.forM fun name => bindName name false
    inLoop (block stmt)
  return .each item counter source body

/-- Reads a loop whose condition comes last, after its first word. -/
def conditionLast (expr : Reader Expr) (stmt : Reader Stmt) : Reader Stmt := do
  let body ← inLoop (block stmt)
  let wanted ←
    if ← acceptWord "while" then pure true
    else do
      if ← acceptWord "until" then pure false else fail (.expected "while")
  return .again body (← condition expr) wanted

/-- Whether nothing follows the first word of a statement. -/
def atEnd : Reader Bool := do
  match ← peek with
  | none => return true
  | some (.sign s) => return s = ";" || s = "\x7d"
  | _ => return false

/-- Reads the value after the first word of a statement, if there is one. -/
def optionalValue (expr : Reader Expr) : Reader (Option Expr) := do
  if ← atEnd then return none else return some (← expr)

/-- Reads a declaration after its first word. -/
def declaration (expr : Reader Expr) (constant : Bool) : Reader Stmt := do
  let place ← position
  let name ← readName
  let value ← if ← accept "=" then some <$> expr else pure none
  bindName name constant
  return .declare name value constant place

/-- Reads a `try` statement after its first word. -/
def attempt (stmt : Reader Stmt) : Reader Stmt := do
  let body ← block stmt
  if !(← acceptWord "catch") then fail (.expected "catch")
  let caught ←
    if ← accept "(" then
      let name ← readName
      expect ")"
      pure (some name)
    else pure none
  let handler ← inScope do
    caught.forM fun name => bindName name false
    block stmt
  return .attempt body caught handler

/-- Reads an import after its first word. -/
def fetch (expr : Reader Expr) (place : Position) : Reader Stmt := do
  let path ← expr
  if ← acceptWord "as" then
    let _ ← readName
  return .fetch path place

/-- Whether a link leads to something that can be assigned to. -/
def linkAssignable : Link → Bool
  | .member _ _ _ => true
  | .item _ _ _ => true
  | .method _ _ _ _ => false

/-- Checks that an expression can stand to the left of an assignment. -/
def checkTarget (target : Expr) : Reader Unit := do
  let checkName (name : String) : Reader Unit := do
    match (← get).locals.lookup name with
    | some true => failAt (.constant name) target.position
    | _ => return ()
  match target with
  | .name name _ => checkName name
  | .chain (.name name _) links =>
    if links.all linkAssignable then checkName name else failAt .leftSide target.position
  | .chain (.subject _) links =>
    if links.all linkAssignable then return () else failAt .leftSide target.position
  | .subject _ => return ()
  | .constant _ _ => failAt (.constant "") target.position
  | _ => failAt .leftSide target.position

/-- The assignment sign that a token is; the operator in it, if any. -/
def assignmentOf? : Option Token → Option (Option String)
  | some (.sign "=") => some none
  | some (.sign s) =>
    if Operator.assignments.contains s then some (some (s.dropEnd 1).toString) else none
  | _ => none

/-- Reads an expression as a statement, or an assignment. -/
def exprOrAssignment (expr : Reader Expr) : Reader Stmt := do
  let target ← expr
  let place ← position
  match assignmentOf? (← peek) with
  | none => return .expr target
  | some operator =>
    advance
    let value ← expr
    checkTarget target
    return .assign target operator value place

/-- Reads a statement. -/
def statement (expr : Reader Expr) (stmt : Reader Stmt) : Reader Stmt := do
  let place ← position
  match ← peek with
  | some (.sign ";") => advance; return .empty
  | some (.sign "\x7b") => return .block (← block stmt)
  | some (.word s) =>
    let known := !(["true", "false", "_"].contains s)
    if known then advance
    match s with
    | "if" => branches expr stmt
    | "switch" =>
      if ← atSign "\x7b" then fail (.expected "an expression")
      let subject ← expr
      expect "\x7b"
      let (found, otherwise) ←
        cases expr (expression expr stmt false) stmt ((← get).tokens.length + 1)
      return .switch subject found otherwise
    | "while" =>
      let condition ← condition expr
      return .loop (some condition) (← inLoop (block stmt))
    | "loop" => return .loop none (← inLoop (block stmt))
    | "do" => conditionLast expr stmt
    | "for" => forLoop expr stmt
    | "let" => declaration expr false
    | "const" => declaration expr true
    | "continue" => if (← get).inLoop then return .next else failAt (.misplaced s) place
    | "break" =>
      if (← get).inLoop then return .leave (← optionalValue expr) else failAt (.misplaced s) place
    | "return" => return .answer (← optionalValue expr)
    | "throw" => return .raise (← optionalValue expr) place
    | "try" => attempt stmt
    | "import" => fetch expr place
    | "true" => exprOrAssignment expr
    | "false" => exprOrAssignment expr
    | _ => failAt (.misplaced s) place
  | _ => exprOrAssignment expr

mutual

/-- Reads an expression. -/
def readExpr : (fuel : Nat) → Reader Expr
  | 0 => fail .tooDeep
  | fuel + 1 => expression (readExpr fuel) (readStmt fuel) true

/-- Reads a statement. -/
def readStmt : (fuel : Nat) → Reader Stmt
  | 0 => fail .tooDeep
  | fuel + 1 => statement (readExpr fuel) (readStmt fuel)

end

/-! ### Scripts -/

/-- Reads a function after its first word. -/
def function (stmt : Reader Stmt) : Reader Unit := do
  let name ← readName
  expect "("
  let parameters ← items ")" readName
  checkDistinct parameters
  if (← get).functions.any fun f => f.name = name && f.parameters.length = parameters.length then
    fail (.duplicate name)
  let (body, _) ← inFunction parameters (block stmt)
  modify fun r => { r with functions := r.functions ++ [⟨name, parameters, body⟩] }

/-- Reads functions and statements up to the end of the script. -/
def program (stmt : Reader Stmt) : (fuel : Nat) → Reader (List Stmt)
  | 0 => return []
  | fuel + 1 => do
    if (← peek).isNone then return []
    if ← acceptWord "private" then
      if !(← acceptWord "fn") then fail (.expected "fn")
      function stmt
      program stmt fuel
    else if ← acceptWord "fn" then
      function stmt
      program stmt fuel
    else
      match ← stmt with
      | .empty => program stmt fuel
      | statement =>
        if !(← accept ";") && !statement.endsItself && (← peek).isSome then fail (.expected ";")
        return statement :: (← program stmt fuel)

end Reader

/-- The program that a script text denotes. The evaluation of texts is a kept word unless the script
`evaluates`. -/
def Program.read (evaluates : Bool) (script : String) : Except SyntaxError Program := do
  let tokens ← Lexer.tokens evaluates script
  let fuel := 2 * tokens.length + 4
  let (statements, reading) ← (Reader.program (Reader.readStmt fuel) fuel).run { tokens }
  return { functions := reading.functions, statements }

end Rulebook.Script
