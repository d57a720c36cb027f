import Rulebook.Proofs.Script.Sentences

/-!
# Phrases

What the reader makes of the phrases that the language is built of: names, calls, assignments,
branches and answers. An operand is over where a sign follows that neither goes on with a chain nor is
an operator.
-/

namespace Rulebook.Script

/-- The reading after the use of a name. -/
def Reading.noting (s : Reading) (name : String) (p : Position) : Reading :=
  { s with unbound :=
      if (s.locals.lookup name).isSome || (s.unbound.lookup name).isSome then s.unbound
      else s.unbound ++ [(name, p)] }

namespace Reader

variable {expr : Reader Expr} {stmt : Reader Stmt} {s t u : Reading} {e e' : Expr}
  {name : String} {p q : Position} {rest : Tokens}

/-! ### What comes next -/

/-- The signs after which an operand is over. -/
def stops : List String := [")", ",", ";", "=", "\x7b", "\x7d"]

/-- An operand is over: a sign comes next that goes on with nothing. -/
def AtStop (s : Reading) : Prop := ∃ sign ∈ stops, ∃ p rest, s.tokens = (.sign sign, p) :: rest

theorem atStop_of {sign : String} (h : sign ∈ stops) (hs : s.tokens = (.sign sign, p) :: rest) :
    AtStop s := ⟨sign, h, p, rest, hs⟩

theorem of_mem_stops : ∀ sign ∈ stops, sign ∉ [".", "?.", "[", "?[", "("] ∧
    Operator.precedence sign = 0 ∧ sign ∉ ["-", "+", "!"] := by
  decide

theorem AtStop.isSign (h : AtStop s) {sign : String} (hsign : sign ∈ [".", "?.", "[", "?[", "("]) :
    isSign sign s.tokens.head? = false := by
  obtain ⟨other, hother, p, rest, hs⟩ := h
  rw [hs]
  refine decide_eq_false ?_
  rintro rfl
  exact (of_mem_stops other hother).1 hsign

/-- An expression is over: a sign comes next that no link and no operator begins with. -/
def IsOver (s : Reading) : Prop :=
  ∃ sign p rest, s.tokens = (.sign sign, p) :: rest ∧ sign ∉ [".", "?.", "[", "?["] ∧
    Operator.precedence sign = 0

theorem AtStop.isOver (h : AtStop s) : IsOver s := by
  obtain ⟨sign, hsign, p, rest, hs⟩ := h
  obtain ⟨hlink, hoperator, -⟩ := of_mem_stops sign hsign
  refine ⟨sign, p, rest, hs, fun hmem => hlink ?_, hoperator⟩
  exact List.mem_append_left ["("] hmem

theorem run_noteUse (name : String) (p : Position) (s : Reading) :
    (noteUse name p).run s = .ok ((), s.noting name p) := by
  change Except.ok ((), if (s.locals.lookup name).isSome || (s.unbound.lookup name).isSome then s
    else { s with unbound := s.unbound ++ [(name, p)] }) = _
  unfold Reading.noting
  split <;> rfl

/-! ### Operands -/

theorem gives_links_nil (h : IsOver s) (fuel : Nat) : Gives (links expr fuel) s [] s := by
  cases fuel with
  | zero => exact gives_pure.2 ⟨rfl, rfl⟩
  | succ fuel =>
    obtain ⟨other, p, rest, hs, hlink, -⟩ := h
    have skips (sign : String) (hsign : sign ∈ [".", "?.", "[", "?["]) :
        (accept sign).run s = .ok (false, s) := by
      have hother : isSign sign s.tokens.head? = false := by
        rw [hs]
        refine decide_eq_false ?_
        rintro rfl
        exact hlink hsign
      rw [run_accept, hother, if_neg Bool.false_ne_true]
    have hlink : Gives (link? expr) s none s := by
      unfold link?
      dsimp only
      rw [gives_bind_of_run (skips "." (by simp)), if_neg Bool.false_ne_true,
        gives_bind_of_run (skips "?." (by simp)), if_neg Bool.false_ne_true,
        gives_bind_of_run (skips "[" (by simp)), if_neg Bool.false_ne_true,
        gives_bind_of_run (skips "?[" (by simp)), if_neg Bool.false_ne_true]
      exact gives_pure.2 ⟨rfl, rfl⟩
    unfold links
    rw [gives_bind_of_run hlink]
    exact gives_pure.2 ⟨rfl, rfl⟩

theorem gives_rights_nil (h : IsOver s) (operand : Reader Expr) (pipe : Bool) (fuel : Nat) :
    Gives (rights operand pipe fuel) s [] s := by
  cases fuel with
  | zero => exact gives_pure.2 ⟨rfl, rfl⟩
  | succ fuel =>
    obtain ⟨sign, p, rest, hs, -, hoperator⟩ := h
    have hnone : Operator.ofToken? (.sign sign) = none := if_pos hoperator
    unfold rights
    rw [gives_bind_of_run (r := position) rfl, gives_bind_of_run (r := peek) rfl, hs]
    dsimp only [List.head?_cons, Option.map_some, Option.bind_some]
    rw [hnone]
    dsimp only [Option.filter_none]
    rw [gives_bind_of_run (r := peek) rfl, hs]
    exact gives_pure.2 ⟨rfl, rfl⟩

/-- An expression that is over after its first operand. -/
theorem gives_expression (hs : ∀ sign p rest, s.tokens = (.sign sign, p) :: rest →
    sign ≠ "-" ∧ sign ≠ "+" ∧ sign ≠ "!") (h : Gives (primary expr stmt) s e t) (ht : IsOver t)
    (pipe : Bool) : Gives (expression expr stmt pipe) s e t := by
  have hoperand : Gives (operand expr stmt) s e t := by
    unfold operand
    rw [gives_bind_of_run (r := get) rfl, gives_bind_of_run (gives_signsBefore_nil hs),
      gives_bind_of_run h, gives_bind_of_run (gives_links_nil ht _)]
    exact gives_pure.2 ⟨rfl, rfl⟩
  unfold expression
  rw [gives_bind_of_run hoperand, gives_bind_of_run (r := get) rfl,
    gives_bind_of_run (gives_rights_nil ht _ _ _)]
  exact gives_pure.2 ⟨rfl, rfl⟩

/-- A name on its own. -/
theorem gives_readExpr_name {fuel : Nat} (hs : s.tokens = (.name name, p) :: rest)
    (h : AtStop (s.withTokens rest)) :
    Gives (readExpr (fuel + 1)) s (.name name p) ((s.withTokens rest).noting name p) := by
  have hparen : (accept "(").run (s.withTokens rest) = .ok (false, s.withTokens rest) := by
    rw [run_accept, h.isSign (by simp), if_neg Bool.false_ne_true]
  have hstop : AtStop ((s.withTokens rest).noting name p) := h
  refine gives_expression (fun sign q rest' h' => ?_) ?_ hstop.isOver true
  · rw [hs] at h'
    cases h'
  · unfold primary
    rw [gives_bind_of_run (r := position) rfl, gives_bind_of_run (r := peek) rfl, hs]
    dsimp only [List.head?_cons, Option.map_some]
    rw [gives_bind_of_run (run_advance hs), gives_bind_of_run hparen, if_neg Bool.false_ne_true,
      gives_bind_of_run (run_noteUse _ _ _)]
    exact gives_pure.2 ⟨rfl, rfl⟩

/-- The tokens that can be called by a name: names, and the words for functions of the language but
for the one that stands for the subject. -/
inductive IsCallee (name : String) : Token → Prop where
  | name : IsCallee name (.name name)
  | word (hword : name ∈ Token.functionWords) (hsubject : name ≠ "this") :
    IsCallee name (.reserved name)

/-- A call, given its arguments. -/
theorem gives_readExpr_callee {fuel : Nat} {token : Token} {args : List Expr}
    (htoken : IsCallee name token) (hs : s.tokens = (token, p) :: (.sign "(", q) :: rest)
    (h : Gives (arguments (readExpr fuel)) (s.withTokens rest) args t) (ht : AtStop t) :
    Gives (readExpr (fuel + 1)) s (.call name args p) t := by
  have hparen : (accept "(").run (s.withTokens ((.sign "(", q) :: rest)) =
      .ok (true, s.withTokens rest) := by
    rw [run_accept]
    rfl
  have hsigns : ∀ sign q rest, s.tokens = (.sign sign, q) :: rest →
      sign ≠ "-" ∧ sign ≠ "+" ∧ sign ≠ "!" := by
    intro sign q rest' h'
    rw [hs] at h'
    cases htoken <;> cases h'
  refine gives_expression hsigns ?_ ht.isOver true
  unfold primary
  rw [gives_bind_of_run (r := position) rfl, gives_bind_of_run (r := peek) rfl, hs]
  cases htoken with
  | name =>
    dsimp only [List.head?_cons, Option.map_some]
    rw [gives_bind_of_run (run_advance hs), gives_bind_of_run hparen, if_pos rfl,
      gives_bind_of_run h]
    exact gives_pure.2 ⟨rfl, rfl⟩
  | word hword hsubject =>
    have hcontains : Token.functionWords.contains name = true := List.contains_iff_mem.2 hword
    dsimp only [List.head?_cons, Option.map_some]
    rw [gives_bind_of_run (run_advance hs), if_neg hsubject, hcontains, gives_bind_of_run hparen,
      Bool.and_self, if_pos rfl, gives_bind_of_run h]
    exact gives_pure.2 ⟨rfl, rfl⟩

/-- A call by name, given its arguments. -/
theorem gives_readExpr_call {fuel : Nat} {args : List Expr}
    (hs : s.tokens = (.name name, p) :: (.sign "(", q) :: rest)
    (h : Gives (arguments (readExpr fuel)) (s.withTokens rest) args t) (ht : AtStop t) :
    Gives (readExpr (fuel + 1)) s (.call name args p) t := gives_readExpr_callee .name hs h ht

/-- The last argument of a call. -/
theorem gives_itemsUpTo_last {fuel : Nat} (hs : isSign ")" s.tokens.head? = false)
    (h : Gives expr s e t) (ht : t.tokens = (.sign ")", p) :: rest) :
    Gives (itemsUpTo ")" expr (fuel + 1)) s [e] (t.withTokens rest) := by
  unfold itemsUpTo
  rw [Gives, run_acceptOr_of_not hs, run_bind_of_gives h, run_acceptOr ht]

/-- An argument of a call that another one follows. -/
theorem gives_itemsUpTo_cons {fuel : Nat} {args : List Expr} (hs : isSign ")" s.tokens.head? = false)
    (h : Gives expr s e t) (ht : t.tokens = (.sign ",", p) :: rest)
    (hrest : Gives (itemsUpTo ")" expr fuel) (t.withTokens rest) args u) :
    Gives (itemsUpTo ")" expr (fuel + 1)) s (e :: args) u := by
  have hcomma : (expect ",").run t = .ok ((), t.withTokens rest) := by
    unfold expect
    have := run_accept "," t
    rw [ht] at this
    rw [run_bind_of_gives this]
    rfl
  unfold itemsUpTo
  rw [Gives, run_acceptOr_of_not hs, run_bind_of_gives h, run_acceptOr_of_not (by rw [ht]; rfl),
    run_bind_of_gives hcomma, run_bind_of_gives hrest]
  rfl

/-- A call with one argument. -/
theorem gives_arguments_one (hs : isSign ")" s.tokens.head? = false) (h : Gives expr s e t)
    (ht : t.tokens = (.sign ")", p) :: rest) :
    Gives (arguments expr) s [e] (t.withTokens rest) := by
  unfold arguments items
  rw [gives_bind_of_run (r := get) rfl]
  exact gives_itemsUpTo_last hs h ht

/-- A call with two arguments. -/
theorem gives_arguments_two {rest' : Tokens} (hne : s.tokens ≠ [])
    (hs : isSign ")" s.tokens.head? = false) (h : Gives expr s e t)
    (ht : t.tokens = (.sign ",", p) :: rest) (hrest : isSign ")" rest.head? = false)
    (h' : Gives expr (t.withTokens rest) e' u) (hu : u.tokens = (.sign ")", q) :: rest') :
    Gives (arguments expr) s [e, e'] (u.withTokens rest') := by
  obtain ⟨fuel, hfuel⟩ : ∃ k, s.tokens.length = k + 1 :=
    Nat.exists_eq_add_one.2 (List.length_pos_iff.2 hne)
  unfold arguments items
  rw [gives_bind_of_run (r := get) rfl, hfuel]
  exact gives_itemsUpTo_cons hs h ht (gives_itemsUpTo_last hrest h' hu)

/-! ### Statements -/

/-- A name that is no constant can be assigned to. -/
theorem run_checkTarget (hname : t.locals.lookup name ≠ some true) :
    (checkTarget (.name name p)).run t = .ok ((), t) := by
  unfold checkTarget
  dsimp only
  rw [StateT.run_bind]
  change (StateT.run _ t : Except SyntaxError (Unit × Reading)) = _
  split
  · contradiction
  · rfl

/-- An assignment to a name that is no constant. -/
theorem gives_readStmt_assign {fuel : Nat} (hs : s.tokens = (.name name, p) :: (.sign "=", q) :: rest)
    (h : Gives (readExpr (fuel + 1)) (((s.withTokens ((.sign "=", q) :: rest)).noting name p).withTokens
      rest) e t) (hname : t.locals.lookup name ≠ some true) :
    Gives (readStmt (fuel + 2)) s (.assign (.name name p) none e q) t := by
  change Gives (statement (readExpr (fuel + 1)) (readStmt (fuel + 1))) s _ _
  unfold statement
  rw [gives_bind_of_run (r := position) rfl, gives_bind_of_run (r := peek) rfl, hs]
  dsimp only [List.head?_cons, Option.map_some]
  have hstop : AtStop (s.withTokens ((.sign "=", q) :: rest)) :=
    ⟨"=", by simp [stops], q, rest, rfl⟩
  have hcheck := run_checkTarget (p := p) hname
  unfold exprOrAssignment
  rw [gives_bind_of_run (gives_readExpr_name hs hstop), gives_bind_of_run (r := position) rfl,
    gives_bind_of_run (r := peek) rfl]
  change Gives (do
    advance
    let value ← readExpr (fuel + 1)
    checkTarget (.name name p)
    return Stmt.assign (.name name p) none value q) _ _ _
  rw [gives_bind_of_run (run_advance rfl), gives_bind_of_run h, gives_bind_of_run hcheck]
  exact gives_pure.2 ⟨rfl, rfl⟩

/-- An answer with a value. -/
theorem gives_readStmt_answer {fuel : Nat} {token : Token}
    (hs : s.tokens = (.word "return", p) :: (token, q) :: rest)
    (htoken : ∀ sign, token ≠ .sign sign)
    (h : Gives (readExpr fuel) (s.withTokens ((token, q) :: rest)) e t) :
    Gives (readStmt (fuel + 1)) s (.answer (some e)) t := by
  have hend : atEnd.run (s.withTokens ((token, q) :: rest)) =
      .ok (false, s.withTokens ((token, q) :: rest)) := by
    cases token with
    | sign sign => exact absurd rfl (htoken sign)
    | _ => rfl
  change Gives (statement (readExpr fuel) (readStmt fuel)) s _ _
  unfold statement
  rw [gives_bind_of_run (r := position) rfl, gives_bind_of_run (r := peek) rfl, hs]
  change Gives (do advance; return Stmt.answer (← optionalValue (readExpr fuel))) _ _ _
  have hvalue : Gives (optionalValue (readExpr fuel)) (s.withTokens ((token, q) :: rest)) (some e) t := by
    unfold optionalValue
    rw [gives_bind_of_run hend, if_neg Bool.false_ne_true, gives_bind_of_run h]
    exact gives_pure.2 ⟨rfl, rfl⟩
  rw [gives_bind_of_run (run_advance hs), gives_bind_of_run hvalue]
  exact gives_pure.2 ⟨rfl, rfl⟩

/-- A branch without a second one. -/
theorem gives_readStmt_branch {fuel : Nat} {token : Token} {body : List Stmt}
    (hs : s.tokens = (.word "if", p) :: (token, q) :: rest) (htoken : ∀ sign, token ≠ .sign sign)
    (hcondition : Gives (readExpr fuel) (s.withTokens ((token, q) :: rest)) e t)
    (hboolean : e.isNoBoolean = false) (hbody : Gives (block (readStmt fuel)) t body u)
    (hu : Open u.tokens) : Gives (readStmt (fuel + 1)) s (.branch e body []) u := by
  have hbrace : (atSign "\x7b").run (s.withTokens ((token, q) :: rest)) =
      .ok (false, s.withTokens ((token, q) :: rest)) := by
    cases token with
    | sign sign => exact absurd rfl (htoken sign)
    | _ => rfl
  have helse : (acceptWord "else").run u = .ok (false, u) := by
    rw [run_acceptWord, hu.isWord, if_neg Bool.false_ne_true]
  change Gives (statement (readExpr fuel) (readStmt fuel)) s _ _
  unfold statement
  rw [gives_bind_of_run (r := position) rfl, gives_bind_of_run (r := peek) rfl, hs]
  change Gives (do advance; branches (readExpr fuel) (readStmt fuel)) _ _ _
  rw [gives_bind_of_run (run_advance hs)]
  have hcond : Gives (condition (readExpr fuel)) (s.withTokens ((token, q) :: rest)) e t := by
    unfold condition
    rw [gives_bind_of_run hbrace]
    dsimp only
    rw [if_neg Bool.false_ne_true, gives_bind_of_run hcondition, hboolean,
      if_neg Bool.false_ne_true]
    exact gives_pure.2 ⟨rfl, rfl⟩
  unfold branches
  rw [gives_bind_of_run hcond, gives_bind_of_run hbody, gives_bind_of_run helse,
    if_neg Bool.false_ne_true]
  exact gives_pure.2 ⟨rfl, rfl⟩

/-! ### Phrases as passages -/

theorem isSign_head_of_gives_readExpr {fuel : Nat} (h : Gives (readExpr fuel) s e t) :
    isSign ")" s.tokens.head? = false := by
  rcases hs : s.tokens with - | ⟨⟨token, p⟩, rest⟩
  · rfl
  · cases token with
    | sign sign =>
      refine decide_eq_false ?_
      rintro rfl
      exact not_gives_readExpr (.inr rfl) hs h
    | _ => rfl

/-- A statement that is a piece with what ends it. -/
theorem passage_of_afterStatement {fuel : Nat} {statement : Stmt} {tokens : Tokens} {p : Position}
    (h : Gives (readStmt fuel) (s.withTokens (tokens ++ [mark p])) statement u) (hne : tokens ≠ [])
    (hempty : statement ≠ .empty)
    (hafter : Gives (afterStatement (sentences (readStmt fuel) 1) statement) u [statement] t) :
    Passage fuel s tokens [statement] t := by
  obtain ⟨x, tokens, rfl⟩ := List.exists_cons_of_ne_nil hne
  obtain ⟨y, others, hy⟩ : ∃ y others, tokens ++ [mark p] = y :: others :=
    List.exists_cons_of_ne_nil (by simp)
  have hpiece : Gives (sentences (readStmt fuel) 2) (s.withTokens (x :: tokens ++ [mark p]))
      [statement] t := by
    unfold sentences
    rw [gives_bind_of_run (r := get) rfl]
    dsimp only [Reading.withTokens]
    rw [List.cons_append, hy]
    dsimp only [List.length_cons]
    rw [← hy, ← List.cons_append]
    refine gives_bind.2 ⟨statement, _, h, ?_⟩
    split
    · contradiction
    · exact hafter
  exact passage_of_gives hpiece

/-- After a piece, nothing is left. -/
theorem gives_inFront_mark {stmt : Reader Stmt} {statement : Stmt} :
    Gives (inFront [statement] (sentences stmt 1)) (t.withTokens [mark p]) [statement]
      (t.withTokens [mark p]) := rfl

/-- A statement that ends itself is a passage. -/
theorem passage_of_endsItself {fuel : Nat} {statement : Stmt} {tokens : Tokens} {p : Position}
    (h : Gives (readStmt fuel) (s.withTokens (tokens ++ [mark p])) statement (t.withTokens [mark p]))
    (hne : tokens ≠ []) (hempty : statement ≠ .empty) (hends : statement.endsItself = true) :
    Passage fuel s tokens [statement] t := by
  have hafter : Gives (afterStatement (sentences (readStmt fuel) 1) statement)
      (t.withTokens [mark p]) [statement] (t.withTokens [mark p]) := by
    rw [Gives, run_afterStatement_of_endsItself rfl hends]
    exact gives_inFront_mark
  have := passage_of_afterStatement h hne hempty hafter
  exact ⟨this.opens, this.functions, this.run⟩

/-- A statement with a semicolon is a passage. -/
theorem passage_of_semicolon {fuel : Nat} {statement : Stmt} {tokens : Tokens} {p q : Position}
    (h : Gives (readStmt fuel) (s.withTokens (tokens ++ [(.sign ";", q), mark p])) statement
      (t.withTokens [(.sign ";", q), mark p])) (hempty : statement ≠ .empty) :
    Passage fuel s (tokens ++ [(.sign ";", q)]) [statement] t := by
  have hafter : Gives (afterStatement (sentences (readStmt fuel) 1) statement)
      (t.withTokens [(.sign ";", q), mark p]) [statement] (t.withTokens [mark p]) := by
    rw [Gives, run_afterStatement_of_semicolon rfl]
    exact gives_inFront_mark
  have hpiece : Gives (readStmt fuel) (s.withTokens (tokens ++ [(.sign ";", q)] ++ [mark p]))
      statement (t.withTokens [(.sign ";", q), mark p]) := by
    rwa [List.append_assoc]
  have := passage_of_afterStatement hpiece (by simp) hempty hafter
  exact ⟨this.opens, this.functions, this.run⟩

end Reader
end Rulebook.Script
