import Rulebook.Proofs.Script.Phrases

/-!
# What the reader refuses

A word that is no callee cannot stand in front of a list of two arguments: either nothing begins with
it, or the expression is over in front of the list. A block cannot be read beyond an assignment of such
a call, `jam_assignment`, and tokens beyond which no block can be read spoil every block with them:
`Jam`.
-/

namespace Rulebook.Script.Reader

variable {expr : Reader Expr} {stmt : Reader Stmt} {s t u : Reading} {e : Expr} {a : Stmt}
  {fuel : Nat} {token : Token} {p : Position} {rest : Tokens}

/-- Words that are not called by what stands behind them. -/
inductive Uncallable : Token → Prop where
  | word (w : String) : Uncallable (.word w)
  | between (w : String) : Uncallable (.between w)
  | subject : Uncallable (.reserved "this")
  | kept {w : String} (h : w ∉ Token.functionWords) : Uncallable (.reserved w)

/-! ### Lists of two arguments -/

/-- Two names in parentheses. -/
def pair (q : Nat → Position) (x y : String) (rest : Tokens) : Tokens :=
  (.sign "(", q 0) :: (.name x, q 1) :: (.sign ",", q 2) :: (.name y, q 3) :: (.sign ")", q 4) :: rest

/-- An expression begins with its first operand. -/
theorem exists_gives_primary (hs : ∀ sign p rest, s.tokens = (.sign sign, p) :: rest →
    sign ≠ "-" ∧ sign ≠ "+" ∧ sign ≠ "!") (h : Gives (readExpr (fuel + 1)) s e t) :
    ∃ root u, Gives (primary (readExpr fuel) (readStmt fuel)) s root u := by
  change Gives (expression (readExpr fuel) (readStmt fuel) true) s e t at h
  unfold expression at h
  obtain ⟨first, v, h, -⟩ := gives_bind.1 h
  unfold operand at h
  rw [gives_bind_of_run (r := get) rfl, gives_bind_of_run (gives_signsBefore_nil hs)] at h
  obtain ⟨root, u, h, -⟩ := gives_bind.1 h
  exact ⟨root, u, h⟩

/-- Two names in parentheses are no expression. -/
theorem not_gives_pair {q : Nat → Position} {x y : String} (hs : s.tokens = pair q x y rest) :
    ¬Gives (readExpr fuel) s e t := by
  intro h
  cases fuel with
  | zero => exact gives_fail.1 h
  | succ fuel =>
    obtain ⟨root, u, h⟩ := exists_gives_primary (fun sign p rest hsign => by
      rw [hs] at hsign
      cases hsign
      decide) h
    let inside : Tokens :=
      (.name x, q 1) :: (.sign ",", q 2) :: (.name y, q 3) :: (.sign ")", q 4) :: rest
    have hclose : (accept ")").run (s.withTokens inside) = .ok (false, s.withTokens inside) := by
      rw [run_accept]
      rfl
    unfold primary at h
    rw [gives_bind_of_run (r := position) rfl, gives_bind_of_run (r := peek) rfl, hs] at h
    -- a parenthesis begins an expression
    change Gives (do
      advance
      if ← accept ")" then return Expr.constant .unit (q 0)
      else
        let inside ← readExpr fuel
        expect ")"
        return inside) s root u at h
    rw [gives_bind_of_run (run_advance hs), gives_bind_of_run hclose, if_neg Bool.false_ne_true] at h
    cases fuel with
    | zero => exact not_gives_fail_bind h
    | succ fuel =>
      have hname : Gives (readExpr (fuel + 1)) (s.withTokens inside) (.name x (q 1)) _ :=
        gives_readExpr_name rfl ⟨",", by simp [stops], _, _, rfl⟩
      rw [gives_bind_of_run hname] at h
      obtain ⟨⟨⟩, v, hexpect, -⟩ := gives_bind.1 h
      exact gives_fail.1 hexpect

/-! ### Words in front of a list -/

/-- The words that statements which are expressions begin with. -/
def statementWords : List String := ["if", "switch", "while", "loop", "do", "for"]

theorem not_gives_block (hs : isSign "\x7b" s.tokens.head? = false) {body : List Stmt} :
    ¬Gives (block stmt) s body t := by
  intro h
  unfold block expect at h
  have haccept := run_accept "\x7b" s
  rw [hs, if_neg Bool.false_ne_true] at haccept
  obtain ⟨⟨⟩, u, hexpect, -⟩ := gives_bind.1 h
  rw [gives_bind_of_run haccept, if_neg Bool.false_ne_true] at hexpect
  exact gives_fail.1 hexpect

/-- What an operand that begins with a word can be: the word alone, or a statement. -/
theorem gives_primary_word {w : String} (hs : s.tokens = (.word w, p) :: rest)
    (h : Gives (primary expr stmt) s e t) :
    t = s.withTokens rest ∨ w ∈ statementWords ∧ ∃ statement, Gives stmt s statement t := by
  unfold primary at h
  rw [gives_bind_of_run (r := position) rfl, gives_bind_of_run (r := peek) rfl, hs] at h
  dsimp only [List.head?_cons, Option.map_some] at h
  split at h
  case h_6 heq =>
    rw [gives_bind_of_run (run_advance hs)] at h
    exact .inl (gives_pure.1 h).2
  case h_7 heq =>
    rw [gives_bind_of_run (run_advance hs)] at h
    exact .inl (gives_pure.1 h).2
  case h_8 word _ _ heq =>
    cases heq
    split at h
    · rename_i hword
      obtain ⟨statement, u, hstatement, h⟩ := gives_bind.1 h
      obtain ⟨-, rfl⟩ := gives_pure.1 h
      exact .inr ⟨List.contains_iff_mem.1 hword, statement, hstatement⟩
    · exact (gives_fail.1 h).elim
  all_goals first
    | exact (gives_fail.1 h).elim
    | (rename_i heq; cases heq)

/-- An operand that begins with a word that is no callee is the word alone, or a statement. -/
theorem gives_primary_uncallable (htoken : Uncallable token) (hs : s.tokens = (token, p) :: rest)
    (h : Gives (primary expr stmt) s e t) : t = s.withTokens rest ∨
      ∃ w ∈ statementWords, token = .word w ∧ ∃ statement, Gives stmt s statement t := by
  cases htoken with
  | word w =>
    exact (gives_primary_word hs h).imp id fun ⟨hw, hstatement⟩ => ⟨w, hw, rfl, hstatement⟩
  | between w =>
    unfold primary at h
    rw [gives_bind_of_run (r := position) rfl, gives_bind_of_run (r := peek) rfl, hs] at h
    exact (gives_fail.1 h).elim
  | subject =>
    unfold primary at h
    rw [gives_bind_of_run (r := position) rfl, gives_bind_of_run (r := peek) rfl, hs] at h
    dsimp only [List.head?_cons, Option.map_some] at h
    rw [gives_bind_of_run (run_advance hs), if_pos rfl, gives_bind_of_run (r := get) rfl] at h
    split at h
    · exact .inl (gives_pure.1 h).2
    · exact (gives_failAt.1 h).elim
  | @kept w hw =>
    have hsubject : w ≠ "this" := by
      rintro rfl
      exact hw (by decide)
    have hcontains : Token.functionWords.contains w = false := by simpa using hw
    unfold primary at h
    rw [gives_bind_of_run (r := position) rfl, gives_bind_of_run (r := peek) rfl, hs] at h
    dsimp only [List.head?_cons, Option.map_some] at h
    rw [gives_bind_of_run (run_advance hs), if_neg hsubject, hcontains] at h
    obtain ⟨yes, u, -, h⟩ := gives_bind.1 h
    exact (gives_failAt.1 h).elim

/-- Two names in parentheses can be those of a loop, but a word comes next. -/
theorem not_gives_forLoop_pair {q : Nat → Position} {x y : String} (hs : s.tokens = pair q x y rest)
    (hrest : isWord "in" rest.head? = false) : ¬Gives (forLoop expr stmt) s a t := by
  intro h
  let names : Tokens := (.name x, q 1) :: (.sign ",", q 2) :: (.name y, q 3) :: (.sign ")", q 4) :: rest
  have hparen : (accept "(").run s = .ok (true, s.withTokens names) := by
    rw [run_accept, hs]
    rfl
  have hitem : readName.run (s.withTokens names) = .ok (x, s.withTokens (names.drop 1)) := rfl
  have hcomma : (expect ",").run (s.withTokens (names.drop 1)) =
    .ok ((), s.withTokens (names.drop 2)) := rfl
  have hcounter : readName.run (s.withTokens (names.drop 2)) =
    .ok (y, s.withTokens (names.drop 3)) := rfl
  have hclose : (expect ")").run (s.withTokens (names.drop 3)) = .ok ((), s.withTokens rest) := rfl
  unfold forLoop at h
  obtain ⟨found, u, hfound, h⟩ := gives_bind.1 h
  have hu : u = s.withTokens rest := by
    unfold loopNames at hfound
    rw [gives_bind_of_run hparen, if_pos rfl, gives_bind_of_run hitem, gives_bind_of_run hcomma,
      gives_bind_of_run hcounter] at hfound
    split at hfound
    · exact (not_gives_fail_bind hfound).elim
    · rw [gives_bind_of_run hclose] at hfound
      exact (gives_pure.1 hfound).2
  have hin : (acceptWord "in").run (s.withTokens rest) = .ok (false, s.withTokens rest) := by
    rw [run_acceptWord, show isWord "in" (s.withTokens rest).tokens.head? = false from hrest,
      if_neg Bool.false_ne_true]
  obtain ⟨item, counter⟩ := found
  dsimp only at h
  rw [hu, gives_bind_of_run hin] at h
  exact not_gives_fail_bind h

/-- No statement begins with a word in front of two names in parentheses. -/
theorem not_gives_statementWord {w : String} (hw : w ∈ statementWords) {q : Nat → Position}
    {x y : String} (hs : s.tokens = (.word w, p) :: pair q x y rest)
    (hrest : isWord "in" rest.head? = false) : ¬Gives (readStmt fuel) s a t := by
  intro h
  cases fuel with
  | zero => exact gives_fail.1 h
  | succ fuel =>
    let v := s.withTokens (pair q x y rest)
    have hbrace : (atSign "\x7b").run v = .ok (false, v) := run_atSign "\x7b" v
    have hcondition {e : Expr} {t : Reading} : ¬Gives (condition (readExpr fuel)) v e t := by
      intro h
      unfold condition at h
      rw [gives_bind_of_run hbrace] at h
      obtain ⟨e, u, h, -⟩ := gives_bind.1 h
      exact not_gives_pair rfl h
    have hblock {body : List Stmt} {t : Reading} :
        ¬Gives (inLoop (block (readStmt fuel))) v body t := by
      intro h
      unfold inLoop at h
      rw [gives_bind_of_run (r := get) rfl, gives_bind_of_run (r := modify _) rfl] at h
      obtain ⟨body, u, h, -⟩ := gives_bind.1 h
      exact not_gives_block rfl h
    have hknown : (!(["true", "false", "_"].contains w)) = true := by
      have hall : ∀ w ∈ statementWords, (!(["true", "false", "_"].contains w)) = true := by decide
      exact hall w hw
    change Gives (statement (readExpr fuel) (readStmt fuel)) s a t at h
    unfold statement at h
    rw [gives_bind_of_run (r := position) rfl, gives_bind_of_run (r := peek) rfl, hs] at h
    dsimp only [List.head?_cons, Option.map_some] at h
    rw [if_pos hknown, gives_bind_of_run (run_advance hs)] at h
    -- `if` and `while` take a condition, `switch` an expression, `loop` and `do` a block
    split at h
    · obtain ⟨e, u, h, -⟩ := gives_bind.1 h
      exact hcondition h
    · rw [gives_bind_of_run hbrace] at h
      obtain ⟨e, u, h, -⟩ := gives_bind.1 h
      exact not_gives_pair rfl h
    · obtain ⟨e, u, h, -⟩ := gives_bind.1 h
      exact hcondition h
    · obtain ⟨body, u, h, -⟩ := gives_bind.1 h
      exact hblock h
    · obtain ⟨body, u, h, -⟩ := gives_bind.1 h
      exact hblock h
    · exact not_gives_forLoop_pair rfl hrest h
    all_goals simp_all [statementWords]

/-- In front of two names in parentheses, an expression is over after a word that is no callee. -/
theorem gives_readExpr_uncallable (htoken : Uncallable token) {q : Nat → Position} {x y : String}
    (hs : s.tokens = (token, p) :: pair q x y rest) (hrest : isWord "in" rest.head? = false)
    (h : Gives (readExpr fuel) s e t) : t.tokens = pair q x y rest := by
  have hsigns : ∀ sign p rest, s.tokens = (.sign sign, p) :: rest →
      sign ≠ "-" ∧ sign ≠ "+" ∧ sign ≠ "!" := by
    intro sign p' rest' hsign
    rw [hs] at hsign
    cases htoken <;> cases hsign
  cases fuel with
  | zero => exact (gives_fail.1 h).elim
  | succ fuel =>
    obtain ⟨root, u, hroot⟩ := exists_gives_primary hsigns h
    rcases gives_primary_uncallable htoken hs hroot with rfl | ⟨w, hw, rfl, statement, hstatement⟩
    · -- nothing goes on with a parenthesis behind an operand that is whole
      have hover : IsOver (s.withTokens (pair q x y rest)) :=
        ⟨"(", q 0, _, rfl, by decide, by decide⟩
      have hwhole : Gives (readExpr (fuel + 1)) s root (s.withTokens (pair q x y rest)) :=
        gives_expression hsigns hroot hover true
      obtain ⟨-, rfl⟩ := (gives_of_run hwhole).1 h
      rfl
    · exact absurd hstatement (not_gives_statementWord hw hs hrest)

/-! ### Blocks that cannot be read -/

/-- Tokens beyond which no block can be read, whatever comes next. -/
structure Jam (depth : Nat) (s : Reading) (tokens : Tokens) : Prop where
  /-- No second branch comes first. -/
  opens : ∀ later, Open (tokens ++ later)
  stuck : ∀ {depth' later fuel found t}, depth ≤ depth' → (tokens ++ later).length < fuel →
    ¬Gives (statementsUpTo (readStmt depth') fuel) (s.withTokens (tokens ++ later)) found t

namespace Jam

variable {depth : Nat} {tokens more : Tokens}

theorem of_le {depth' : Nat} (h : Jam depth s tokens) (hdepth : depth ≤ depth') :
    Jam depth' s tokens :=
  ⟨h.opens, fun hle => h.stuck (Nat.le_trans hdepth hle)⟩

/-- A block that can be read up to a jam is jammed. -/
theorem after {found : List Stmt} (h : Passage depth s tokens found t) (h' : Jam depth t more) :
    Jam depth s (tokens ++ more) where
  opens later := by
    rw [List.append_assoc]
    exact h.opens (h'.opens later)
  stuck {depth' later fuel found' u} hle hfuel hgives := by
    rw [List.append_assoc] at hfuel hgives
    obtain ⟨fuel', hfuel', heq⟩ := h.run hle (h'.opens later) hfuel
    rw [Gives, heq] at hgives
    obtain ⟨rest, -, hrest⟩ := gives_inFront hgives
    exact h'.stuck hle hfuel' hrest

theorem not_gives_blockRest {depth' : Nat} {later : Tokens} {body : List Stmt}
    (h : Jam depth s tokens) (hdepth : depth ≤ depth') :
    ¬Gives (blockRest (readStmt depth')) (s.withTokens (tokens ++ later)) body t := by
  intro hgives
  unfold blockRest at hgives
  rw [gives_bind_of_run (r := get) rfl] at hgives
  unfold inScope at hgives
  rw [gives_bind_of_run (r := get) rfl] at hgives
  obtain ⟨found, u, hfound, -⟩ := gives_bind.1 hgives
  exact h.stuck hdepth (Nat.lt_succ_self _) hfound

end Jam

/-- A block that does not end at once begins with a statement. -/
theorem exists_gives_statement {stmt : Reader Stmt} {found : List Stmt}
    (hs : isSign "\x7d" s.tokens.head? = false)
    (h : Gives (statementsUpTo stmt fuel) s found t) : ∃ a u, Gives stmt s a u ∧
      (a = .empty ∨ (isSign "\x7d" u.tokens.head? = true ∨ isSign ";" u.tokens.head? = true ∨
        a.endsItself = true)) := by
  cases fuel with
  | zero => exact (gives_fail.1 h).elim
  | succ fuel =>
    rw [statementsUpTo_succ, Gives, run_acceptOr_of_not hs] at h
    obtain ⟨a, u, ha, h⟩ := gives_bind.1 h
    refine ⟨a, u, ha, ?_⟩
    split at h
    · exact .inl rfl
    · right
      cases hbrace : isSign "\x7d" u.tokens.head? with
      | true => exact .inl rfl
      | false =>
        rw [Gives, run_acceptOr_of_not hbrace] at h
        rcases gives_afterStatement h with ⟨p, rest, hu, -⟩ | ⟨-, hends, -⟩
        · exact .inr (.inl (by rw [hu]; rfl))
        · exact .inr (.inr hends)

/-- An assignment to a name ends where the expression on its right side ends. -/
theorem gives_assignment {q : Position} {name : String}
    (hs : s.tokens = (.name name, p) :: (.sign "=", q) :: rest)
    (h : Gives (readStmt fuel) s a t) : a ≠ .empty ∧ a.endsItself = false ∧
      ∃ fuel v value u, Gives (readExpr fuel) v value u ∧ v.tokens = rest ∧ t.tokens = u.tokens := by
  obtain ⟨fuel, rfl⟩ : ∃ k, fuel = k + 1 := by
    cases fuel with
    | zero => exact (gives_fail.1 h).elim
    | succ k => exact ⟨k, rfl⟩
  change Gives (statement (readExpr fuel) (readStmt fuel)) s a t at h
  unfold statement at h
  rw [gives_bind_of_run (r := position) rfl, gives_bind_of_run (r := peek) rfl, hs] at h
  change Gives (exprOrAssignment (readExpr fuel)) s a t at h
  cases fuel with
  | zero => exact (not_gives_fail_bind h).elim
  | succ fuel =>
    have hstop : AtStop (s.withTokens ((.sign "=", q) :: rest)) :=
      ⟨"=", by simp [stops], q, rest, rfl⟩
    -- the name is read as an expression before the sign shows that it is a target
    unfold exprOrAssignment at h
    rw [gives_bind_of_run (gives_readExpr_name hs hstop), gives_bind_of_run (r := position) rfl,
      gives_bind_of_run (r := peek) rfl] at h
    change Gives (do
      advance
      let value ← readExpr (fuel + 1)
      checkTarget (.name name p)
      return Stmt.assign (.name name p) none value q) _ _ _ at h
    rw [gives_bind_of_run (run_advance rfl)] at h
    obtain ⟨value, u, hvalue, h⟩ := gives_bind.1 h
    obtain ⟨⟨⟩, w, hcheck, h⟩ := gives_bind.1 h
    obtain ⟨rfl, rfl⟩ := gives_pure.1 h
    unfold checkTarget at hcheck
    dsimp only at hcheck
    rw [gives_bind_of_run (r := get) rfl] at hcheck
    split at hcheck
    · exact (gives_failAt.1 hcheck).elim
    · obtain ⟨-, rfl⟩ := gives_pure.1 hcheck
      exact ⟨by simp, rfl, _, _, value, _, hvalue, rfl, rfl⟩

/-- The block of a branch begins after the condition. -/
theorem exists_gives_block {q : Position} (hs : s.tokens = (.word "if", p) :: (token, q) :: rest)
    (htoken : ∀ sign, token ≠ .sign sign)
    (hcondition : Gives (readExpr fuel) (s.withTokens ((token, q) :: rest)) e u)
    (h : Gives (readStmt (fuel + 1)) s a t) :
    ∃ body v, Gives (block (readStmt fuel)) u body v := by
  have hbrace : (atSign "\x7b").run (s.withTokens ((token, q) :: rest)) =
      .ok (false, s.withTokens ((token, q) :: rest)) := by
    cases token with
    | sign sign => exact absurd rfl (htoken sign)
    | _ => rfl
  change Gives (statement (readExpr fuel) (readStmt fuel)) s a t at h
  unfold statement at h
  rw [gives_bind_of_run (r := position) rfl, gives_bind_of_run (r := peek) rfl, hs] at h
  change Gives (do advance; branches (readExpr fuel) (readStmt fuel)) s a t at h
  rw [gives_bind_of_run (run_advance hs)] at h
  unfold branches condition at h
  obtain ⟨e', v, hcondition', h⟩ := gives_bind.1 h
  obtain ⟨body, w, hbody, -⟩ := gives_bind.1 h
  rw [gives_bind_of_run hbrace] at hcondition'
  dsimp only at hcondition'
  rw [if_neg Bool.false_ne_true, gives_bind_of_run hcondition] at hcondition'
  split at hcondition'
  · exact (gives_failAt.1 hcondition').elim
  · obtain ⟨-, rfl⟩ := gives_pure.1 hcondition'
    exact ⟨body, w, hbody⟩

/-- A block cannot be read beyond the assignment of what is no call. -/
theorem jam_assignment (htoken : Uncallable token) {p₁ p₂ p₃ p₄ : Position} {q : Nat → Position}
    {name x y : String} :
    Jam 0 s ((.name name, p₁) :: (.sign "=", p₂) :: (token, p₃) :: pair q x y [(.sign ";", p₄)]) where
  opens _ := trivial
  stuck _ _ h := by
    obtain ⟨a, u, ha, hends⟩ := exists_gives_statement rfl h
    obtain ⟨hempty, hself, fuel, v, value, w, hvalue, hv, hu⟩ := gives_assignment rfl ha
    have hw := gives_readExpr_uncallable htoken hv rfl hvalue
    rw [hu, hw] at hends
    simp [hempty, hself, pair, isSign] at hends

end Rulebook.Script.Reader
