import Rulebook.Script.Syntax

/-!
# Operators

Which operators bind tighter than others. A sequence of operands with operators between them becomes
a tree: an operator takes the operands to its right that stand before the next operator that does
not bind tighter. The power operator groups to the right, all others to the left.
-/

namespace Rulebook.Script.Operator

/-- How tightly an operator binds; zero for what is no operator. -/
def precedence (operator : String) : Nat :=
  match operator with
  | "||" => 30
  | "|" => 30
  | "^" => 30
  | "&&" => 60
  | "&" => 60
  | "starts_with" => 80
  | "ends_with" => 81
  | "search" => 82
  | "==" => 90
  | "!=" => 90
  | "in" => 110
  | "!in" => 110
  | "<" => 130
  | "<=" => 130
  | ">" => 130
  | ">=" => 130
  | "??" => 135
  | ".." => 140
  | "..=" => 140
  | "+" => 150
  | "-" => 150
  | "*" => 180
  | "/" => 180
  | "%" => 180
  | "**" => 190
  | "<<" => 210
  | ">>" => 210
  | _ => 0

/-- Whether the operator groups to the right. -/
def groupsRight (operator : String) : Bool := operator == "**"

/-- The operators that assign. -/
def assignments : List String :=
  ["+=", "-=", "*=", "/=", "%=", "**=", "<<=", ">>=", "&=", "|=", "^="]

/-- The operator that a token is. -/
def ofToken? : Token → Option String
  | .sign s => if precedence s = 0 then none else some s
  | .between s => some s
  | .word "in" => some "in"
  | _ => none

/-- An operator and its right operand. -/
structure Right where
  operator : String
  position : Position
  operand : Expr

/-- The application of an operator. The logical operators do not take what is visibly no truth
value. -/
def combine (left : Expr) (right : Right) : Except SyntaxError Expr :=
  let boolean (e : Expr) : Except SyntaxError Unit :=
    if e.isNoBoolean then .error ⟨.notBoolean, e.position⟩ else .ok ()
  let operands := [left, right.operand]
  match right.operator with
  | "||" => do boolean right.operand; boolean left; return .or left right.operand
  | "&&" => do boolean right.operand; boolean left; return .and left right.operand
  | "??" => .ok (.coalesce left right.operand)
  | "in" => .ok (.call "contains" operands.reverse right.position)
  | "!in" =>
    .ok (.apply "!" [.call "contains" operands.reverse right.position] right.position)
  | operator => .ok (.apply operator operands right.position)

/-- The tree of an operand and what follows it, as far as the operators bind tighter than `outer`,
and the rest. -/
def climb : (fuel outer : Nat) → Expr → List Right → Except SyntaxError (Expr × List Right)
  | 0, _, left, rest => .ok (left, rest)
  | _, _, left, [] => .ok (left, [])
  | fuel + 1, outer, left, right :: rest =>
    let own := precedence right.operator
    if own < outer || (own = outer && !groupsRight right.operator) then .ok (left, right :: rest)
    else do
      let takesMore := match rest with
        | next :: _ =>
          own < precedence next.operator ||
            (own = precedence next.operator && groupsRight right.operator)
        | [] => false
      let (operand, rest) ←
        if takesMore then climb fuel own right.operand rest else .ok (right.operand, rest)
      climb fuel outer (← combine left { right with operand }) rest

/-- The tree of operands with operators between them. -/
def tree (first : Expr) (rest : List Right) : Except SyntaxError Expr :=
  (climb (2 * rest.length + 1) 1 first rest).map (·.1)

end Rulebook.Script.Operator
