import Rulebook.Script.Datum
import Rulebook.Script.Token

/-!
# The syntax of scripts

A script declares functions and has statements of its own. An expression that looks into a value,
with members, items and methods, is a chain: a root and the links that are followed from it. An
anonymous function is declared under a name of its own, and the expression that makes it lists the
variables that it captures.
-/

namespace Rulebook.Script

/-- What a case of a `switch` matches: a value, or the integers of a range. -/
inductive CasePattern where
  | value (value : Datum)
  | range (first last : Int64) (closed : Bool)

mutual

/-- An expression. -/
inductive Expr where
  | constant (value : Datum) (position : Position)
  /-- A template literal: its pieces of text are constants among the interpolations. -/
  | template (parts : List Expr) (position : Position)
  | list (items : List Expr) (position : Position)
  | map (members : List (String × Expr)) (position : Position)
  | name (name : String) (position : Position)
  /-- The value that a method was called on. -/
  | subject (position : Position)
  | call (function : String) (arguments : List Expr) (position : Position)
  /-- The application of an operator, which no function of the script replaces. -/
  | apply (operator : String) (operands : List Expr) (position : Position)
  | chain (root : Expr) (links : List Link)
  | and (left right : Expr)
  | or (left right : Expr)
  | coalesce (left right : Expr)
  | statement (statement : Stmt)
  | function (name : String) (captured : List (String × Position)) (position : Position)

/-- A step of a chain. An optional one ends the chain when there is nothing to look into. -/
inductive Link where
  | member (name : String) (optional : Bool) (position : Position)
  | method (name : String) (arguments : List Expr) (optional : Bool) (position : Position)
  | item (index : Expr) (optional : Bool) (position : Position)

/-- A statement. -/
inductive Stmt where
  | empty
  | expr (expr : Expr)
  | declare (name : String) (value : Option Expr) (constant : Bool) (position : Position)
  | assign (target : Expr) (operator : Option String) (value : Expr) (position : Position)
  | block (body : List Stmt)
  | branch (condition : Expr) (yes no : List Stmt)
  | switch (subject : Expr) (cases : List Case) (otherwise : Option Stmt)
  /-- A loop with a condition that is checked first; without one it runs until it is left. -/
  | loop (condition : Option Expr) (body : List Stmt)
  /-- A loop with a condition that is checked last: it goes on while the condition is `wanted`. -/
  | again (body : List Stmt) (condition : Expr) (wanted : Bool)
  | each (item : String) (counter : Option String) (source : Expr) (body : List Stmt)
  | leave (value : Option Expr)
  | next
  | answer (value : Option Expr)
  | raise (value : Option Expr) (position : Position)
  | attempt (body : List Stmt) (caught : Option String) (handler : List Stmt)
  /-- An import. No script can name what a module defines, so only whether there is one counts. -/
  | fetch (path : Expr) (position : Position)

/-- A case of a `switch`. -/
inductive Case where
  | mk (patterns : List CasePattern) (condition : Expr) (body : Stmt)

end

instance : Inhabited Expr := ⟨.constant .unit default⟩

instance : Inhabited Stmt := ⟨.empty⟩

/-- A function of a script. -/
structure Function where
  name : String
  parameters : List String
  body : List Stmt

/-- A script. -/
structure Program where
  functions : List Function
  statements : List Stmt

namespace Expr

/-- The place of an expression. -/
def position : Expr → Option Position
  | constant _ p => some p
  | template _ p => some p
  | list _ p => some p
  | map _ p => some p
  | name _ p => some p
  | subject p => some p
  | call _ _ p => some p
  | apply _ _ p => some p
  | chain root _ => position root
  | and left _ => position left
  | or left _ => position left
  | coalesce left _ => position left
  | statement _ => none
  | function _ _ p => some p

mutual

/-- The value that an expression spells out. -/
def literal? : Expr → Option Datum
  | constant value _ => some value
  | list items _ => (literalItems? items).map .list
  | map members _ => (literalMembers? members).map .map
  | _ => none

/-- The values that all items spell out. -/
def literalItems? : List Expr → Option (List Datum)
  | [] => some []
  | item :: rest => do
    let value ← literal? item
    return value :: (← literalItems? rest)

/-- The members that all spell out their values, in the order of their names. -/
def literalMembers? : List (String × Expr) → Option (List (String × Datum))
  | [] => some []
  | (key, member) :: rest => do
    let value ← literal? member
    return Fields.putSorted (← literalMembers? rest) key value

end

/-- Whether the expression shows that its value is no truth value. -/
def isNoBoolean : Expr → Bool
  | constant (.bool _) _ => false
  | constant _ _ => true
  | template _ _ => true
  | list _ _ => true
  | map _ _ => true
  | _ => false

/-- Whether the expression shows that its value has no items to go through. -/
def isNoSource : Expr → Bool
  | constant (.int _) _ => false
  | constant (.bool _) _ => false
  | constant _ _ => true
  | template _ _ => true
  | map _ _ => true
  | _ => false

end Expr

namespace Stmt

/-- Whether the statement ends by itself, without a semicolon. -/
def endsItself : Stmt → Bool
  | block _ => true
  | branch _ _ _ => true
  | switch _ _ _ => true
  | loop _ _ => true
  | each _ _ _ _ => true
  | attempt _ _ _ => true
  | _ => false

/-- Whether the statement has a value that the script can use. -/
def hasValue : Stmt → Bool
  | expr _ => true
  | block _ => true
  | branch _ _ _ => true
  | switch _ _ _ => true
  | _ => false

end Stmt
end Rulebook.Script
