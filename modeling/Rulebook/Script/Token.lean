import Rulebook.Script.Position

/-!
# Tokens of a script

A template literal is cut into pieces of text between its interpolations: a piece that is followed
by an interpolation says so, and the tokens of the interpolation up to its closing brace come next.
-/

namespace Rulebook.Script

/-- A token. -/
inductive Token where
  | int (n : Int64)
  | float (x : Float)
  | char (c : Char)
  | text (s : String)
  | piece (s : String) (more : Bool)
  /-- A name that a script may choose. -/
  | name (s : String)
  /-- A word with a fixed meaning. -/
  | word (s : String)
  /-- A word that stands between its two operands. -/
  | between (s : String)
  | sign (s : String)
  /-- A word or sign that must not be used, or only in calls. -/
  | reserved (s : String)

/-- What is wrong with the text of a script. -/
inductive SyntaxProblem where
  | number
  | escape
  | unterminatedText
  | character
  | name
  | sign
  | reserved (word : String)
  | expected (what : String)
  | notBoolean
  | notIterable
  | index
  | constant (name : String)
  | leftSide
  | duplicate (name : String)
  | misplaced (word : String)
  | defaultCase
  | tooDeep
  deriving Repr, DecidableEq

/-- An error in the text of a script. -/
structure SyntaxError where
  problem : SyntaxProblem
  /-- The place of the error; none at the end of the text. -/
  position : Option Position
  deriving Repr, DecidableEq

namespace SyntaxProblem

/-- The wording of a problem. -/
def message : SyntaxProblem → String
  | number => "Malformed number"
  | escape => "Malformed escape sequence"
  | unterminatedText => "String is not terminated"
  | character => "Malformed character"
  | name => "Variable name is not proper"
  | sign => "Unexpected symbol"
  | reserved word => "'" ++ word ++ "' is a reserved keyword"
  | expected what => "Expecting " ++ what
  | notBoolean => "Expecting a boolean expression"
  | notIterable => "Expecting an iterable value"
  | index => "Invalid index"
  | constant word => "Cannot assign to constant " ++ word
  | leftSide => "Expression cannot be assigned to"
  | duplicate word => "Duplicated name " ++ word
  | misplaced word => "'" ++ word ++ "' cannot stand here"
  | defaultCase => "The default case must be the last one"
  | tooDeep => "Expression exceeds maximum complexity"

end SyntaxProblem

namespace SyntaxError

/-- The wording of an error. -/
def message (err : SyntaxError) : String :=
  match err.position with
  | some position => err.problem.message ++ " (" ++ position.text ++ ")"
  | none => err.problem.message ++ " (end of the script)"

end SyntaxError

namespace Token

/-- The words with a fixed meaning. -/
def words : List String :=
  ["let", "const", "if", "else", "switch", "do", "while", "until", "loop", "for", "in", "continue",
    "break", "return", "throw", "try", "catch", "import", "export", "as", "fn", "private", "true",
    "false"]

/-- The words that stand between two operands. -/
def betweenWords : List String := ["starts_with", "ends_with", "search"]

/-- The words that name functions of the language itself. -/
def functionWords : List String :=
  ["print", "debug", "type_of", "eval", "Fn", "call", "curry", "this", "is_def_var", "is_def_fn",
    "is_shared"]

/-- The words kept for later. -/
def keptWords : List String :=
  ["var", "static", "begin", "end", "shared", "each", "then", "unless", "goto", "match", "case",
    "default", "void", "null", "nil", "spawn", "thread", "go", "new", "use", "with", "is", "module",
    "package", "super", "public", "protected", "async", "await", "yield", "sync"]

/-- The signs of three characters. -/
def longSigns : List String := ["**=", "<<=", ">>=", "..="]

/-- The signs of two characters. -/
def pairSigns : List String :=
  ["**", "+=", "-=", "*=", "/=", "%=", "<<", ">>", "<=", ">=", "==", "!=", "||", "|=", "&&", "&=",
    "^=", "=>", "..", "::", "??", "?.", "?[", "#\x7b"]

/-- The signs of one character. -/
def singleSigns : List String :=
  ["\x7b", "\x7d", "(", ")", "[", "]", ",", ";", ":", ".", "+", "-", "*", "/", "%", "<", ">", "=",
    "!", "|", "&", "^"]

/-- The signs kept for later. -/
def keptSigns : List String :=
  ["===", "!==", "...", "++", "--", "->", "<-", "<|", "|>", ":=", "?", "~", "@", "$", "\\", "#"]

/-- Whether an operand may come next after the token, so that a minus sign belongs to it. -/
def opensOperand : Token → Bool
  | sign s => !(s == ")" || s == "]" || s == "\x7d")
  | word s => !(s == "true" || s == "false")
  | between _ => true
  | piece _ _ => true
  | _ => false

end Token
end Rulebook.Script
