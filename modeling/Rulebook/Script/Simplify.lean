import Rulebook.Script.Syntax

/-!
# Leaving out what has no effect

Before a script is run, statements without an effect are left out, and with them the errors that
they would raise: a name alone is such a statement, so that an unknown name in a statement of its
own goes unnoticed. Conditions that are known decide between their branches. A block keeps its last
statement if its value may be wanted.
-/

namespace Rulebook.Script

mutual

/-- Whether the value of an expression is spelled out by it. -/
def Expr.isConstant : Expr → Bool
  | .constant _ _ => true
  | .template parts _ => Expr.allConstant parts
  | .list items _ => Expr.allConstant items
  | .map members _ => Expr.allConstantMembers members
  | .function _ captured _ => captured.isEmpty
  | _ => false

/-- Whether all values are spelled out. -/
def Expr.allConstant : List Expr → Bool
  | [] => true
  | e :: rest => e.isConstant && Expr.allConstant rest

/-- Whether the values of all members are spelled out. -/
def Expr.allConstantMembers : List (String × Expr) → Bool
  | [] => true
  | (_, e) :: rest => e.isConstant && Expr.allConstantMembers rest

end

mutual

/-- Whether an expression counts as having no effect. -/
def Expr.isPure : Expr → Bool
  | .constant _ _ => true
  | .name _ _ => true
  | .template parts _ => Expr.allPure parts
  | .list items _ => Expr.allPure items
  | .map members _ => Expr.allPureMembers members
  | .and a b => a.isPure && b.isPure
  | .or a b => a.isPure && b.isPure
  | .coalesce a b => a.isPure && b.isPure
  | .statement s => s.isPure
  | .function _ captured _ => captured.isEmpty
  | _ => false

/-- Whether all expressions count as having no effect. -/
def Expr.allPure : List Expr → Bool
  | [] => true
  | e :: rest => e.isPure && Expr.allPure rest

/-- Whether the values of all members count as having no effect. -/
def Expr.allPureMembers : List (String × Expr) → Bool
  | [] => true
  | (_, e) :: rest => e.isPure && Expr.allPureMembers rest

/-- Whether a statement counts as having no effect. Loops do not, unless they go through something
that has an end. -/
def Stmt.isPure : Stmt → Bool
  | .empty => true
  | .expr e => e.isPure
  | .block body => Stmt.allPure body
  | .branch condition yes no => condition.isPure && Stmt.allPure yes && Stmt.allPure no
  | .switch subject cases otherwise =>
    subject.isPure && Case.allPure cases &&
      (match otherwise with
        | some s => s.isPure
        | none => true)
  | .loop (some (.constant (.bool false) _)) _ => true
  | .again body (.constant (.bool b) _) wanted => b != wanted && Stmt.allPure body
  | .each _ _ source body => source.isPure && Stmt.allPure body
  | .attempt body _ handler => Stmt.allPure body && Stmt.allPure handler
  | _ => false

/-- Whether all statements count as having no effect. -/
def Stmt.allPure : List Stmt → Bool
  | [] => true
  | s :: rest => s.isPure && Stmt.allPure rest

/-- Whether all cases count as having no effect. -/
def Case.allPure : List Case → Bool
  | [] => true
  | .mk _ condition body :: rest => condition.isPure && body.isPure && Case.allPure rest

end

namespace Stmt

/-- Whether a statement has no effect outside of its block: a declaration has none. -/
def isPureInside : Stmt → Bool
  | declare _ none _ _ => true
  | declare _ (some value) _ _ => value.isPure
  | fetch path _ => path.isPure
  | s => s.isPure

/-- Whether a statement has an effect on the ones after it in its block only. -/
def bindsInBlock : Stmt → Bool
  | declare _ _ _ _ => true
  | fetch _ _ => true
  | _ => false

/-- Whether a statement keeps the ones before it in place. -/
def isFixed (pure : Stmt → Bool) (s : Stmt) : Bool :=
  !pure s ||
    match s with
    | declare _ none _ _ => true
    | declare _ (some value) _ _ => value.isConstant
    | expr e => !e.isConstant
    | fetch path _ => !path.isConstant
    | _ => false

/-- The place of the last statement that keeps the ones before it in place; zero if there is
none. -/
def lastFixed (pure : Stmt → Bool) (body : List Stmt) : Nat :=
  match body.reverse.findIdx? (isFixed pure) with
  | some n => body.length - n - 1
  | none => 0

/-- The statements from the place `index` on without those that have no effect. -/
def dropPure (pure : Stmt → Bool) (keep : Bool) (fixed : Nat) :
    (index : Nat) → List Stmt → List Stmt
  | _, [] => []
  | index, s :: rest =>
    let dropped := if keep && rest.isEmpty then false else (pure s && fixed ≤ index) || s.isPure
    let rest := dropPure pure keep fixed (index + 1) rest
    if dropped then rest else s :: rest

/-- The statements of a block whose value may be wanted, given in reverse, without statements at the
end that have neither an effect nor a value. -/
def trimKept (pure : Stmt → Bool) : List Stmt → List Stmt
  | [] => []
  | [s] => if !s.hasValue && pure s then [] else [s]
  | last :: before :: rest =>
    match last, before.hasValue with
    | empty, true => last :: before :: rest
    | last, hasValue =>
      if !last.hasValue && pure last then
        if hasValue then empty :: before :: rest else trimKept pure (before :: rest)
      else last :: before :: rest

/-- The statements of a block without those that have no effect. The value of the block may be
wanted if `keep` holds, and names declared in it are used in it only if `inner` holds. -/
def trim (keep inner : Bool) (body : List Stmt) : List Stmt :=
  let pure := if inner then isPureInside else isPure
  let body := dropPure pure keep (lastFixed pure body) 0 body
  if keep then (trimKept pure body.reverse).reverse
  else (body.reverse.dropWhile pure).reverse

/-- The statements with the contents of the plain blocks among them in place of these blocks. -/
def flatten : List Stmt → List Stmt
  | [] => []
  | block body :: rest =>
    if body.any bindsInBlock then block body :: flatten rest else body ++ flatten rest
  | s :: rest => s :: flatten rest

/-- The statements of a block, of parts that are simple already, without those that have no
effect. -/
def tidy (keep inner : Bool) (body : List Stmt) : List Stmt := trim keep inner (flatten body)

/-- A block as a statement. -/
def ofBlock : List Stmt → Stmt
  | [] => empty
  | [s] => if s.bindsInBlock then block [s] else s
  | body => block body

/-- A branch whose parts are simple already. -/
def ofBranch (keep : Bool) (condition : Expr) (yes no : List Stmt) : Stmt :=
  match condition with
  | .constant (.bool true) _ => ofBlock yes
  | .constant (.bool false) _ => ofBlock no
  | condition =>
    if yes.isEmpty && no.isEmpty then
      if keep then block [expr condition, empty] else expr condition
    else branch condition yes no

end Stmt

namespace Expr

/-- A conjunction whose parts are simple already. -/
def ofAnd : Expr → Expr → Expr
  | constant (.bool true) _, right => right
  | constant (.bool false) p, _ => constant (.bool false) p
  | left, constant (.bool true) _ => left
  | left, right => and left right

/-- A disjunction whose parts are simple already. -/
def ofOr : Expr → Expr → Expr
  | constant (.bool false) _, right => right
  | constant (.bool true) p, _ => constant (.bool true) p
  | left, constant (.bool false) _ => left
  | left, right => or left right

/-- A choice of the first value that is there, of parts that are simple already. -/
def ofCoalesce : Expr → Expr → Expr
  | constant .unit _, right => right
  | left, right => if left.isConstant then left else coalesce left right

/-- A statement as an expression. -/
def ofStatement : Stmt → Expr
  | .empty => statement (.block [])
  | .expr e => e
  | s => statement s

end Expr

mutual

/-- The expression without parts that have no effect. -/
def Expr.simplify : Expr → Expr
  | .template parts p => .template (Expr.simplifyAll parts) p
  | .list items p => .list (Expr.simplifyAll items) p
  | .map members p => .map (Expr.simplifyMembers members) p
  | .call f arguments p => .call f (Expr.simplifyAll arguments) p
  | .apply operator operands p => .apply operator (Expr.simplifyAll operands) p
  | .chain root links => .chain root.simplify (Link.simplifyAll links)
  | .and a b => .ofAnd a.simplify b.simplify
  | .or a b => .ofOr a.simplify b.simplify
  | .coalesce a b => .ofCoalesce a.simplify b.simplify
  | .statement s => .ofStatement (s.simplify true)
  | e => e

/-- The expressions without parts that have no effect. -/
def Expr.simplifyAll : List Expr → List Expr
  | [] => []
  | e :: rest => e.simplify :: Expr.simplifyAll rest

/-- The members without parts that have no effect. -/
def Expr.simplifyMembers : List (String × Expr) → List (String × Expr)
  | [] => []
  | (name, e) :: rest => (name, e.simplify) :: Expr.simplifyMembers rest

/-- The links without parts that have no effect. -/
def Link.simplifyAll : List Link → List Link
  | [] => []
  | .member name optional p :: rest => .member name optional p :: Link.simplifyAll rest
  | .method name arguments optional p :: rest =>
    .method name (Expr.simplifyAll arguments) optional p :: Link.simplifyAll rest
  | .item index optional p :: rest => .item index.simplify optional p :: Link.simplifyAll rest

/-- The statement without parts that have no effect. Its value may be wanted if `keep` holds. -/
def Stmt.simplify (keep : Bool) : Stmt → Stmt
  | .empty => .empty
  | .expr e =>
    match e.simplify with
    | .statement s => s
    | e => .expr e
  | .declare name value constant p =>
    .declare name (match value with
      | some e => some e.simplify
      | none => none) constant p
  | .assign target operator value p => .assign target.simplify operator value.simplify p
  | .block body => .ofBlock (Stmt.tidy keep true (Stmt.simplifyAll keep body))
  | .branch condition yes no =>
    .ofBranch keep condition.simplify (Stmt.tidy keep true (Stmt.simplifyAll keep yes))
      (Stmt.tidy keep true (Stmt.simplifyAll keep no))
  | .switch subject cases otherwise =>
    .switch subject.simplify (Case.simplifyAll keep cases) (match otherwise with
      | some s => some (s.simplify keep)
      | none => none)
  | .loop condition body =>
    let body := Stmt.tidy false true (Stmt.simplifyAll false body)
    match condition with
    | none => .loop none body
    | some e =>
      match e.simplify with
      | .constant (.bool false) _ => .empty
      | e => .loop (some e) body
  | .again body condition wanted =>
    .again (Stmt.tidy false true (Stmt.simplifyAll false body)) condition.simplify wanted
  | .each item counter source body =>
    .each item counter source.simplify (Stmt.tidy false true (Stmt.simplifyAll false body))
  | .leave value =>
    .leave (match value with
      | some e => some e.simplify
      | none => none)
  | .next => .next
  | .answer value =>
    .answer (match value with
      | some e => some e.simplify
      | none => none)
  | .raise value p =>
    .raise (match value with
      | some e => some e.simplify
      | none => none) p
  | .attempt body caught handler =>
    let body := Stmt.tidy false true (Stmt.simplifyAll false body)
    if Stmt.allPure body then .ofBlock body
    else .attempt body caught (Stmt.tidy false true (Stmt.simplifyAll false handler))
  | .fetch path p => .fetch path.simplify p

/-- The statements without parts that have no effect. -/
def Stmt.simplifyAll (keep : Bool) : List Stmt → List Stmt
  | [] => []
  | s :: rest => s.simplify keep :: Stmt.simplifyAll keep rest

/-- The cases without parts that have no effect. -/
def Case.simplifyAll (keep : Bool) : List Case → List Case
  | [] => []
  | .mk patterns condition body :: rest =>
    .mk patterns condition.simplify (body.simplify keep) :: Case.simplifyAll keep rest

end

namespace Program

/-- The body of a function or script without statements that have no effect. -/
def simplifyBody (body : List Stmt) : List Stmt :=
  Stmt.tidy true false (Stmt.simplifyAll true body)

/-- The program without statements that have no effect. -/
def simplify (program : Program) : Program where
  functions := program.functions.map fun f => { f with body := simplifyBody f.body }
  statements := simplifyBody program.statements

end Program
end Rulebook.Script
