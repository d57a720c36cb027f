import Rulebook.Script.Interpreter

/-!
# Variables that code does not use

Code spares a variable if it does not use its name: it neither looks the variable up nor brings one of
that name into scope, and it evaluates no texts, which could do so. The functions that the code calls do
not count, as they see no variables but their own.
-/

namespace Rulebook.Script

mutual

/-- Whether an expression spares a variable. -/
def Expr.spares (hidden : String) : Expr → Bool
  | .constant _ _ => true
  | .template parts _ => Expr.allSpare hidden parts
  | .list items _ => Expr.allSpare hidden items
  | .map members _ => Expr.membersSpare hidden members
  | .name name _ => name != hidden
  | .subject _ => true
  | .call name arguments _ => name != "eval" && Expr.allSpare hidden arguments
  | .apply _ operands _ => Expr.allSpare hidden operands
  | .chain root links => root.spares hidden && Link.allSpare hidden links
  | .and a b => a.spares hidden && b.spares hidden
  | .or a b => a.spares hidden && b.spares hidden
  | .coalesce a b => a.spares hidden && b.spares hidden
  | .statement s => s.spares hidden
  | .function _ captured _ => captured.all fun (name, _) => name != hidden

/-- Whether all expressions spare a variable. -/
def Expr.allSpare (hidden : String) : List Expr → Bool
  | [] => true
  | e :: rest => e.spares hidden && Expr.allSpare hidden rest

/-- Whether the values of all members spare a variable. -/
def Expr.membersSpare (hidden : String) : List (String × Expr) → Bool
  | [] => true
  | (_, e) :: rest => e.spares hidden && Expr.membersSpare hidden rest

/-- Whether a link of a chain spares a variable. -/
def Link.spares (hidden : String) : Link → Bool
  | .member _ _ _ => true
  | .method _ arguments _ _ => Expr.allSpare hidden arguments
  | .item index _ _ => index.spares hidden

/-- Whether all links of a chain spare a variable. -/
def Link.allSpare (hidden : String) : List Link → Bool
  | [] => true
  | link :: rest => link.spares hidden && Link.allSpare hidden rest

/-- Whether a statement spares a variable. -/
def Stmt.spares (hidden : String) : Stmt → Bool
  | .empty => true
  | .expr e => e.spares hidden
  | .declare name value _ _ => name != hidden && Expr.optionSpares hidden value
  | .assign target _ value _ => target.spares hidden && value.spares hidden
  | .block body => Stmt.allSpare hidden body
  | .branch condition yes no =>
    condition.spares hidden && Stmt.allSpare hidden yes && Stmt.allSpare hidden no
  | .switch subject cases otherwise =>
    subject.spares hidden && Case.allSpare hidden cases && Stmt.optionSpares hidden otherwise
  | .loop condition body => Expr.optionSpares hidden condition && Stmt.allSpare hidden body
  | .again body condition _ => Stmt.allSpare hidden body && condition.spares hidden
  | .each item counter source body =>
    item != hidden && counter.all (· != hidden) && source.spares hidden &&
      Stmt.allSpare hidden body
  | .leave value => Expr.optionSpares hidden value
  | .next => true
  | .answer value => Expr.optionSpares hidden value
  | .raise value _ => Expr.optionSpares hidden value
  | .attempt body caught handler =>
    Stmt.allSpare hidden body && caught.all (· != hidden) && Stmt.allSpare hidden handler
  | .fetch path _ => path.spares hidden

/-- Whether all statements spare a variable. -/
def Stmt.allSpare (hidden : String) : List Stmt → Bool
  | [] => true
  | s :: rest => s.spares hidden && Stmt.allSpare hidden rest

/-- Whether an expression that may be missing spares a variable. -/
def Expr.optionSpares (hidden : String) : Option Expr → Bool
  | none => true
  | some e => e.spares hidden

/-- Whether a statement that may be missing spares a variable. -/
def Stmt.optionSpares (hidden : String) : Option Stmt → Bool
  | none => true
  | some s => s.spares hidden

/-- Whether a case of a `switch` spares a variable. -/
def Case.spares (hidden : String) : Case → Bool
  | .mk _ condition body => condition.spares hidden && body.spares hidden

/-- Whether all cases of a `switch` spare a variable. -/
def Case.allSpare (hidden : String) : List Case → Bool
  | [] => true
  | c :: rest => c.spares hidden && Case.allSpare hidden rest

end

/-- Whether a task spares a variable. -/
def Task.spares (hidden : String) : Task → Bool
  | .expr e => e.spares hidden
  | .body statements => Stmt.allSpare hidden statements

variable {hidden : String}

theorem Expr.allSpare_iff {es : List Expr} :
    Expr.allSpare hidden es = true ↔ ∀ e ∈ es, e.spares hidden = true := by
  induction es with
  | nil => simp [allSpare]
  | cons e rest ih => rw [allSpare, Bool.and_eq_true, ih, List.forall_mem_cons]

theorem Link.allSpare_iff {links : List Link} :
    Link.allSpare hidden links = true ↔ ∀ link ∈ links, link.spares hidden = true := by
  induction links with
  | nil => simp [allSpare]
  | cons link rest ih => rw [allSpare, Bool.and_eq_true, ih, List.forall_mem_cons]

theorem Stmt.allSpare_iff {statements : List Stmt} :
    Stmt.allSpare hidden statements = true ↔ ∀ s ∈ statements, s.spares hidden = true := by
  induction statements with
  | nil => simp [allSpare]
  | cons s rest ih => rw [allSpare, Bool.and_eq_true, ih, List.forall_mem_cons]

theorem Stmt.allSpare_append (first second : List Stmt) :
    Stmt.allSpare hidden (first ++ second) =
      (Stmt.allSpare hidden first && Stmt.allSpare hidden second) := by
  rw [Bool.eq_iff_iff, Bool.and_eq_true, allSpare_iff, allSpare_iff, allSpare_iff,
    List.forall_mem_append]

theorem Case.allSpare_iff {cases : List Case} :
    Case.allSpare hidden cases = true ↔ ∀ c ∈ cases, c.spares hidden = true := by
  induction cases with
  | nil => simp [allSpare]
  | cons c rest ih => rw [allSpare, Bool.and_eq_true, ih, List.forall_mem_cons]

end Rulebook.Script
