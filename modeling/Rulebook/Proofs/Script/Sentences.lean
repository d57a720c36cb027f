import Rulebook.Proofs.Script.Grammar

/-!
# The statements of a piece of a block

A piece of a block that has been read on its own, `sentences`, is read in the same way in its place:
reading the block goes on after the piece with the statements of the piece in front, by
`run_statementsUpTo`. Such pieces are passages, `passage_of_gives`, and so are several of them in a
row. A block that is a passage up to its closing brace has its statements, `gives_blockRest`.
-/

namespace Rulebook.Script.Reader

variable {α β : Type} {s t u : Reading} {a : α}

/-- Reads the statements of a piece of a block. A token that belongs to no statement marks the end of
the piece. -/
def sentences (stmt : Reader Stmt) : (fuel : Nat) → Reader (List Stmt)
  | 0 => fail .tooDeep
  | fuel + 1 => do
    match (← get).tokens.length with
    | 0 => fail (.expected "a statement")
    | 1 => return []
    | _ =>
      match ← stmt with
      | .empty => sentences stmt fuel
      | statement => afterStatement (sentences stmt fuel) statement

/-- The token that marks the end of a piece. -/
def mark (p : Position) : Token × Position := (.sign "\x7d", p)

theorem run_bind_of_gives {r : Reader α} {f : α → Reader β} (h : Gives r s a u) :
    (r >>= f).run s = (f a).run u := by
  rw [StateT.run_bind, h]
  rfl

theorem run_acceptOr_of_not {sign : String} {r : Reader α} (h : isSign sign s.tokens.head? = false) :
    (do if ← accept sign then return a else r).run s = r.run s := by
  have := run_accept sign s
  rw [h, if_neg Bool.false_ne_true] at this
  rw [run_bind_of_gives this, if_neg Bool.false_ne_true]

theorem run_acceptOr {sign : String} {r : Reader α} {p : Position} {rest : Tokens}
    (h : s.tokens = (.sign sign, p) :: rest) :
    (do if ← accept sign then return a else r).run s = .ok (a, s.withTokens rest) := by
  have := run_accept sign s
  have hsign : isSign sign s.tokens.head? = true := by rw [h]; exact decide_eq_true rfl
  rw [hsign, if_pos rfl, h] at this
  rw [run_bind_of_gives this]
  rfl

/-! ### Statements at certain tokens -/

/-- Without a sign in front of it, an operand begins at once. -/
theorem gives_signsBefore_nil {n : Nat} (h : ∀ sign p rest, s.tokens = (.sign sign, p) :: rest →
    sign ≠ "-" ∧ sign ≠ "+" ∧ sign ≠ "!") : Gives (signsBefore n) s [] s := by
  cases n with
  | zero => exact gives_pure.2 ⟨rfl, rfl⟩
  | succ n =>
    unfold signsBefore
    rw [gives_bind_of_run (r := position) rfl, gives_bind_of_run (r := peek) rfl]
    rcases hs : s.tokens with - | ⟨⟨token, p⟩, rest⟩
    · exact gives_pure.2 ⟨rfl, rfl⟩
    · cases token with
      | sign sign =>
        obtain ⟨h₁, h₂, h₃⟩ := h sign p rest hs
        dsimp only [List.head?_cons, Option.map_some]
        rw [if_neg (by simp [h₁, h₂, h₃])]
        exact gives_pure.2 ⟨rfl, rfl⟩
      | _ => exact gives_pure.2 ⟨rfl, rfl⟩

/-- A closing sign begins no expression. -/
theorem not_gives_readExpr {fuel : Nat} {e : Expr} {sign : String} {p : Position} {rest : Tokens}
    (hsign : sign = "\x7d" ∨ sign = ")") (hs : s.tokens = (.sign sign, p) :: rest) :
    ¬ Gives (readExpr fuel) s e t := by
  intro h
  cases fuel with
  | zero => exact gives_fail.1 h
  | succ fuel =>
    obtain ⟨e', u, h, -⟩ := gives_bind.1 h
    unfold operand at h
    rw [gives_bind_of_run (r := get) rfl] at h
    have hnone : Gives (signsBefore s.tokens.length) s [] s := by
      refine gives_signsBefore_nil fun sign' p' rest' hs' => ?_
      rw [hs] at hs'
      cases hs'
      rcases hsign with rfl | rfl <;> decide
    rw [gives_bind_of_run hnone] at h
    obtain ⟨root, v, h, -⟩ := gives_bind.1 h
    unfold primary at h
    rw [gives_bind_of_run (r := position) rfl, gives_bind_of_run (r := peek) rfl, hs] at h
    rcases hsign with rfl | rfl <;> exact gives_fail.1 h

/-- A closing brace begins no statement. -/
theorem not_gives_readStmt {fuel : Nat} {a : Stmt} {p : Position} {rest : Tokens}
    (hs : s.tokens = mark p :: rest) : ¬ Gives (readStmt fuel) s a t := by
  intro h
  cases fuel with
  | zero => exact gives_fail.1 h
  | succ fuel =>
    change Gives (statement (readExpr fuel) (readStmt fuel)) s a t at h
    unfold statement at h
    rw [gives_bind_of_run (r := position) rfl, gives_bind_of_run (r := peek) rfl, hs] at h
    change Gives (exprOrAssignment (readExpr fuel)) s a t at h
    obtain ⟨e, u, h, -⟩ := gives_bind.1 h
    exact not_gives_readExpr (.inl rfl) hs h

/-- A semicolon is an empty statement. -/
theorem gives_readStmt_semicolon {fuel : Nat} {p : Position} {rest : Tokens}
    (hs : s.tokens = (.sign ";", p) :: rest) :
    Gives (readStmt (fuel + 1)) s .empty (s.withTokens rest) := by
  change Gives (statement (readExpr fuel) (readStmt fuel)) s _ _
  unfold statement
  rw [gives_bind_of_run (r := position) rfl, gives_bind_of_run (r := peek) rfl, hs]
  change Gives (do advance; return Stmt.empty) s _ _
  rw [gives_bind_of_run (run_advance hs)]
  exact gives_pure.2 ⟨rfl, rfl⟩

/-! ### A piece in its place -/

/-- Statements in front of those that a reader comes to. -/
def inFront (first : List Stmt) (r : Reader (List Stmt)) : Reader (List Stmt) := do
  return first ++ (← r)

theorem run_inFront_nil (r : Reader (List Stmt)) (s : Reading) :
    (inFront [] r).run s = r.run s := by
  unfold inFront
  rw [StateT.run_bind]
  cases r.run s <;> rfl

theorem run_inFront_inFront (first second : List Stmt) (r : Reader (List Stmt)) (s : Reading) :
    (inFront first (inFront second r)).run s = (inFront (first ++ second) r).run s := by
  unfold inFront
  rw [StateT.run_bind, StateT.run_bind, StateT.run_bind]
  cases r.run s with
  | error err => rfl
  | ok result =>
    obtain ⟨statements, t⟩ := result
    exact congrArg (fun found => Except.ok (found, t)) (List.append_assoc _ _ _).symm

theorem run_inFront_of_run_eq {first : List Stmt} {r r' : Reader (List Stmt)}
    (h : r.run s = r'.run t) : (inFront first r).run s = (inFront first r').run t := by
  unfold inFront
  rw [StateT.run_bind, StateT.run_bind, h]

theorem exists_of_isSign {sign : String} {tokens : Tokens} (h : isSign sign tokens.head? = true) :
    ∃ p rest, tokens = (.sign sign, p) :: rest := by
  rcases tokens with - | ⟨⟨token, p⟩, rest⟩
  · cases h
  · cases token with
    | sign other =>
      obtain rfl := of_decide_eq_true h
      exact ⟨p, rest, rfl⟩
    | _ => cases h

/-- What follows a statement, if a semicolon comes next. -/
theorem run_afterStatement_of_semicolon {rest : Reader (List Stmt)} {statement : Stmt}
    {p : Position} {more : Tokens} (hs : s.tokens = (.sign ";", p) :: more) :
    (afterStatement rest statement).run s = (inFront [statement] rest).run (s.withTokens more) := by
  have haccept := run_accept ";" s
  have hsign : isSign ";" s.tokens.head? = true := by rw [hs]; rfl
  rw [hsign, if_pos rfl, hs] at haccept
  unfold afterStatement
  rw [run_bind_of_gives haccept]
  rfl

/-- What follows a statement that ends itself, if no semicolon comes next. -/
theorem run_afterStatement_of_endsItself {rest : Reader (List Stmt)} {statement : Stmt}
    (hs : isSign ";" s.tokens.head? = false) (h : statement.endsItself = true) :
    (afterStatement rest statement).run s = (inFront [statement] rest).run s := by
  have haccept := run_accept ";" s
  rw [hs, if_neg Bool.false_ne_true] at haccept
  unfold afterStatement
  rw [run_bind_of_gives haccept]
  rw [if_neg (by simp [h])]
  rfl

/-- After a statement, a semicolon comes next or the statement ends itself. -/
theorem gives_afterStatement {rest : Reader (List Stmt)} {statement : Stmt} {found : List Stmt}
    (h : Gives (afterStatement rest statement) s found t) :
    (∃ p more, s.tokens = (.sign ";", p) :: more ∧
      Gives (inFront [statement] rest) (s.withTokens more) found t) ∨
    (isSign ";" s.tokens.head? = false ∧ statement.endsItself = true ∧
      Gives (inFront [statement] rest) s found t) := by
  cases hsign : isSign ";" s.tokens.head? with
  | true =>
    left
    obtain ⟨p, more, hs⟩ := exists_of_isSign hsign
    refine ⟨p, more, hs, ?_⟩
    rw [Gives, ← run_afterStatement_of_semicolon hs]
    exact h
  | false =>
    right
    cases hends : statement.endsItself with
    | true =>
      refine ⟨rfl, rfl, ?_⟩
      rw [Gives, ← run_afterStatement_of_endsItself hsign hends]
      exact h
    | false =>
      exfalso
      have haccept := run_accept ";" s
      rw [hsign, if_neg Bool.false_ne_true] at haccept
      unfold afterStatement at h
      rw [gives_bind_of_run haccept, if_pos (by simp [hends])] at h
      exact not_gives_fail_bind h

theorem exists_append_of_suffix {tokens piece : Tokens} {x : Token × Position}
    (h : tokens <:+ piece ++ [x]) (hne : tokens ≠ []) : ∃ left, tokens = left ++ [x] := by
  obtain ⟨before, h⟩ := h
  have hlast := List.dropLast_concat_getLast hne
  rw [← hlast, ← List.append_assoc] at h
  obtain ⟨-, h⟩ := List.append_inj' h rfl
  exact ⟨tokens.dropLast, by rw [← h, hlast]⟩

/-- What comes out of the rest of a piece comes out of all of it with the statements before. -/
theorem gives_inFront {first found : List Stmt} {r : Reader (List Stmt)}
    (h : Gives (inFront first r) s found t) : ∃ rest, found = first ++ rest ∧ Gives r s rest t := by
  obtain ⟨rest, u, hr, h⟩ := gives_bind.1 h
  obtain ⟨rfl, rfl⟩ := gives_pure.1 h
  exact ⟨rest, rfl, hr⟩

theorem not_gives_sentences {stmt : Reader Stmt} {fuel : Nat} {found : List Stmt}
    (hs : s.tokens = []) : ¬ Gives (sentences stmt fuel) s found t := by
  intro h
  cases fuel with
  | zero => exact gives_fail.1 h
  | succ fuel =>
    unfold sentences at h
    rw [gives_bind_of_run (r := get) rfl, hs] at h
    exact gives_fail.1 h

theorem gives_sentences_mark {stmt : Reader Stmt} {fuel : Nat} {found : List Stmt}
    {x : Token × Position} (hs : s.tokens = [x]) (h : Gives (sentences stmt fuel) s found t) :
    found = [] ∧ t = s := by
  cases fuel with
  | zero => exact (gives_fail.1 h).elim
  | succ fuel =>
    unfold sentences at h
    rw [gives_bind_of_run (r := get) rfl, hs] at h
    exact gives_pure.1 h

/-- A piece of which something is left goes on with a statement. -/
theorem gives_sentences_succ {stmt : Reader Stmt} {fuel : Nat} {found : List Stmt}
    {x y : Token × Position} {rest : Tokens} (hs : s.tokens = x :: y :: rest)
    (h : Gives (sentences stmt (fuel + 1)) s found t) : ∃ statement u, Gives stmt s statement u ∧
      (statement = .empty ∧ Gives (sentences stmt fuel) u found t ∨
        statement ≠ .empty ∧ Gives (afterStatement (sentences stmt fuel) statement) u found t) := by
  unfold sentences at h
  rw [gives_bind_of_run (r := get) rfl, hs] at h
  obtain ⟨statement, u, hstatement, h⟩ := gives_bind.1 h
  refine ⟨statement, u, hstatement, ?_⟩
  split at h
  · exact .inl ⟨rfl, h⟩
  · rename_i hne
    exact .inr ⟨hne, h⟩

theorem isSign_head_of_gives_readStmt {depth : Nat} {statement : Stmt}
    (h : Gives (readStmt depth) s statement t) : isSign "\x7d" s.tokens.head? = false := by
  rcases hs : s.tokens with - | ⟨⟨token, p⟩, rest⟩
  · rfl
  · cases token with
    | sign sign =>
      refine decide_eq_false ?_
      rintro rfl
      exact not_gives_readStmt hs h
    | _ => rfl

/-! ### Blocks, statement after statement -/

section

variable {depth fuel : Nat} {statement : Stmt}

theorem run_statementsUpTo_empty (h : Gives (readStmt depth) s .empty u) :
    (statementsUpTo (readStmt depth) (fuel + 1)).run s =
      (statementsUpTo (readStmt depth) fuel).run u := by
  rw [statementsUpTo_succ, run_acceptOr_of_not (isSign_head_of_gives_readStmt h),
    run_bind_of_gives h]

theorem run_statementsUpTo_of_ne (h : Gives (readStmt depth) s statement u)
    (hne : statement ≠ .empty) : (statementsUpTo (readStmt depth) (fuel + 1)).run s = (do
      if ← accept "\x7d" then return [statement]
      else afterStatement (statementsUpTo (readStmt depth) fuel) statement).run u := by
  rw [statementsUpTo_succ, run_acceptOr_of_not (isSign_head_of_gives_readStmt h),
    run_bind_of_gives h]
  split
  · contradiction
  · rfl

/-- A block closes after a statement. -/
theorem run_statementsUpTo_close {p : Position} {rest : Tokens}
    (h : Gives (readStmt depth) s statement u) (hne : statement ≠ .empty)
    (hu : u.tokens = mark p :: rest) : (statementsUpTo (readStmt depth) (fuel + 1)).run s =
      (inFront [statement] (statementsUpTo (readStmt depth) (rest.length + 2))).run u := by
  rw [run_statementsUpTo_of_ne h hne, run_acceptOr hu]
  have hclose : (statementsUpTo (readStmt depth) (rest.length + 2)).run u =
      .ok ([], u.withTokens rest) := by
    rw [statementsUpTo_succ, run_acceptOr hu]
  unfold inFront
  rw [run_bind_of_gives hclose]
  rfl

/-- A block goes on after a statement and a semicolon. -/
theorem run_statementsUpTo_semicolon {p : Position} {rest : Tokens}
    (h : Gives (readStmt depth) s statement u) (hne : statement ≠ .empty)
    (hu : u.tokens = (.sign ";", p) :: rest) :
    (statementsUpTo (readStmt depth) (fuel + 1)).run s =
      (inFront [statement] (statementsUpTo (readStmt depth) fuel)).run (u.withTokens rest) := by
  rw [run_statementsUpTo_of_ne h hne, run_acceptOr_of_not (by rw [hu]; rfl),
    run_afterStatement_of_semicolon hu]

/-- A block goes on after a statement that ends itself. -/
theorem run_statementsUpTo_endsItself (h : Gives (readStmt depth) s statement u)
    (hne : statement ≠ .empty) (hends : statement.endsItself = true)
    (hbrace : isSign "\x7d" u.tokens.head? = false)
    (hsemicolon : isSign ";" u.tokens.head? = false) :
    (statementsUpTo (readStmt depth) (fuel + 1)).run s =
      (inFront [statement] (statementsUpTo (readStmt depth) fuel)).run u := by
  rw [run_statementsUpTo_of_ne h hne, run_acceptOr_of_not hbrace,
    run_afterStatement_of_endsItself hsemicolon hends]

end

/-- A statement that ends itself is followed by the rest of the block, whatever comes next. -/
theorem exists_run_statementsUpTo {depth fuel : Nat} {statement : Stmt}
    (h : Gives (readStmt depth) s statement u) (hne : statement ≠ .empty)
    (hends : statement.endsItself = true) (hfuel : u.tokens.length < fuel) :
    ∃ fuel', u.tokens.length < fuel' ∧ (statementsUpTo (readStmt depth) (fuel + 1)).run s =
      (inFront [statement] (statementsUpTo (readStmt depth) fuel')).run u := by
  cases hbrace : isSign "\x7d" u.tokens.head? with
  | true =>
    obtain ⟨p, rest, hu⟩ := exists_of_isSign hbrace
    refine ⟨rest.length + 2, ?_, run_statementsUpTo_close h hne hu⟩
    rw [hu, List.length_cons]
    omega
  | false =>
    cases hsemicolon : isSign ";" u.tokens.head? with
    | true =>
      obtain ⟨p, rest, hu⟩ := exists_of_isSign hsemicolon
      refine ⟨fuel + 1, by omega, ?_⟩
      rw [run_statementsUpTo_semicolon h hne hu]
      -- in a block, the semicolon is an empty statement
      obtain ⟨depth, rfl⟩ : ∃ k, depth = k + 1 := by
        cases depth with
        | zero => exact (gives_fail.1 h).elim
        | succ k => exact ⟨k, rfl⟩
      exact run_inFront_of_run_eq (run_statementsUpTo_empty (gives_readStmt_semicolon hu)).symm
    | false =>
      exact ⟨fuel, hfuel, run_statementsUpTo_endsItself h hne hends hbrace hsemicolon⟩

/-- Reading a block goes on after a piece of it, with the statements of the piece in front. -/
theorem run_statementsUpTo {depth depth' : Nat} (hdepth : depth ≤ depth') {p : Position}
    {rounds : Nat} {s t : Reading} {found : List Stmt} {piece : Tokens}
    (h : Gives (sentences (readStmt depth) rounds) s found t) (hs : s.tokens = piece ++ [mark p]) :
    t.tokens = [mark p] ∧ ∀ {later : Tokens} {fuel : Nat}, Open later →
      (piece ++ later).length < fuel → ∃ fuel', later.length < fuel' ∧
        (statementsUpTo (readStmt depth') fuel).run (s.withTokens (piece ++ later)) =
          (inFront found (statementsUpTo (readStmt depth') fuel')).run (t.withTokens later) := by
  have parts := parts_of_le hdepth
  induction rounds generalizing s found piece with
  | zero => exact (gives_fail.1 h).elim
  | succ rounds ih =>
    rcases piece with - | ⟨x, piece⟩
    · -- nothing is left of the piece
      obtain ⟨rfl, rfl⟩ := gives_sentences_mark hs h
      refine ⟨hs, fun {later fuel} _ hfuel => ⟨fuel, hfuel, ?_⟩⟩
      rw [run_inFront_nil]
      rfl
    · obtain ⟨y, others, hy⟩ : ∃ y others, piece ++ [mark p] = y :: others := by
        cases piece with
        | nil => exact ⟨_, _, rfl⟩
        | cons y piece => exact ⟨_, _, rfl⟩
      have hs' : s.tokens = x :: y :: others := by rw [hs, List.cons_append, hy]
      obtain ⟨statement, u, hstatement, h⟩ := gives_sentences_succ hs' h
      -- something follows the statement, at least the mark, so it has left the end of the piece
      have hu : u.tokens ≠ [] := by
        intro hu
        rcases h with ⟨-, h⟩ | ⟨-, h⟩
        · exact not_gives_sentences hu h
        · rcases gives_afterStatement h with ⟨_, _, hu', -⟩ | ⟨-, -, h⟩
          · rw [hu] at hu'
            cases hu'
          · obtain ⟨rest, -, h⟩ := gives_inFront h
            exact not_gives_sentences hu h
      obtain ⟨left, hleft⟩ :=
        exists_append_of_suffix (hs ▸ ((parts.onStmt 0 0).forward.later hstatement).tokens) hu
      have hlength : (left ++ [mark p]).length < (x :: piece ++ [mark p]).length := by
        rw [← hleft, ← hs]
        exact (parts.onStmt 0 0).takes hstatement (by simp [hs])
      have frame {later : Tokens} (hl : left ≠ [] ∨ Closes statement ∧ Open later) :
          Gives (readStmt depth') (s.withTokens (x :: piece ++ later)) statement
            (u.withTokens (left ++ later)) :=
        (parts.onStmt (x :: piece ++ [mark p]).length (x :: piece).length).frame hstatement hs hleft
          (Nat.le_of_eq List.length_append.symm) (Nat.le_refl _)
          (hl.imp id fun hl => ⟨hl.1, trivial, hl.2⟩)
      simp only [List.length_append] at hlength
      rcases h with ⟨rfl, h⟩ | ⟨hne, h⟩
      · obtain ⟨ht, hlater⟩ := ih h hleft
        refine ⟨ht, fun {later fuel} hopen hfuel => ?_⟩
        obtain ⟨fuel, rfl⟩ : ∃ k, fuel = k + 1 := ⟨fuel - 1, by omega⟩
        rw [run_statementsUpTo_empty (frame (.inr ⟨.inr rfl, hopen⟩))]
        rw [List.length_append] at hfuel
        exact hlater hopen (by rw [List.length_append]; omega)
      · rcases gives_afterStatement h with ⟨q, more, hmore, h⟩ | ⟨-, hends, h⟩
        · -- the semicolon is in the piece
          obtain ⟨rest, rfl, hrest⟩ := gives_inFront h
          obtain ⟨left, rfl, hmore⟩ : ∃ left', left = (.sign ";", q) :: left' ∧
              more = left' ++ [mark p] := by
            rw [hmore] at hleft
            cases left with
            | nil => simp [mark] at hleft
            | cons z left =>
              obtain ⟨rfl, rfl⟩ := List.cons.inj hleft
              exact ⟨left, rfl, rfl⟩
          obtain ⟨ht, hlater⟩ := ih hrest hmore
          refine ⟨ht, fun {later fuel} hopen hfuel => ?_⟩
          obtain ⟨fuel, rfl⟩ : ∃ k, fuel = k + 1 := ⟨fuel - 1, by omega⟩
          rw [List.length_append] at hfuel
          rw [List.length_cons] at hlength
          obtain ⟨fuel', hfuel', heq⟩ :=
            @hlater _ fuel hopen (by rw [List.length_append]; omega)
          refine ⟨fuel', hfuel', ?_⟩
          rw [run_statementsUpTo_semicolon (frame (.inl (List.cons_ne_nil _ _))) hne rfl,
            ← run_inFront_inFront]
          exact run_inFront_of_run_eq heq
        · -- the statement ends itself, so a semicolon behind it may stand beyond the piece
          obtain ⟨rest, rfl, hrest⟩ := gives_inFront h
          obtain ⟨ht, hlater⟩ := ih hrest hleft
          refine ⟨ht, fun {later fuel} hopen hfuel => ?_⟩
          obtain ⟨fuel, rfl⟩ : ∃ k, fuel = k + 1 := ⟨fuel - 1, by omega⟩
          rw [List.length_append] at hfuel
          have hu : (u.withTokens (left ++ later)).tokens.length < fuel := by
            rw [Reading.withTokens, List.length_append]
            omega
          obtain ⟨fuel₁, hfuel₁, heq₁⟩ :=
            exists_run_statementsUpTo (frame (.inr ⟨.inl hends, hopen⟩)) hne hends hu
          obtain ⟨fuel', hfuel', heq⟩ := hlater hopen hfuel₁
          refine ⟨fuel', hfuel', ?_⟩
          rw [heq₁, ← run_inFront_inFront]
          exact run_inFront_of_run_eq heq

/-! ### Passages -/

/-- A second branch begins no statement. -/
theorem not_gives_readStmt_else {fuel : Nat} {a : Stmt} {p : Position} {rest : Tokens}
    (hs : s.tokens = (.word "else", p) :: rest) : ¬ Gives (readStmt fuel) s a t := by
  intro h
  cases fuel with
  | zero => exact gives_fail.1 h
  | succ fuel =>
    change Gives (statement (readExpr fuel) (readStmt fuel)) s a t at h
    unfold statement at h
    rw [gives_bind_of_run (r := position) rfl, gives_bind_of_run (r := peek) rfl, hs] at h
    change Gives (do advance; failAt (.misplaced "else") p) s a t at h
    rw [gives_bind_of_run (run_advance hs)] at h
    exact gives_failAt.1 h

/-- Tokens that can be read on their own, wherever they stand in a block: reading goes on after them
with their statements in front. -/
structure Passage (depth : Nat) (s : Reading) (tokens : Tokens) (found : List Stmt) (t : Reading) :
    Prop where
  /-- No second branch comes first. -/
  opens : ∀ {later}, Open later → Open (tokens ++ later)
  functions : ∀ f ∈ t.functions, f ∈ s.functions ∨ f.IsAnonymous
  run : ∀ {depth' later fuel}, depth ≤ depth' → Open later → (tokens ++ later).length < fuel →
    ∃ fuel', later.length < fuel' ∧
      (statementsUpTo (readStmt depth') fuel).run (s.withTokens (tokens ++ later)) =
        (inFront found (statementsUpTo (readStmt depth') fuel')).run (t.withTokens later)

theorem later_of_gives_sentences {depth fuel : Nat} {found : List Stmt}
    (h : Gives (sentences (readStmt depth) fuel) s found t) : Reading.Later s t := by
  have parts := parts_of_le (Nat.le_refl depth)
  induction fuel generalizing s found with
  | zero => exact (gives_fail.1 h).elim
  | succ fuel ih =>
    rcases hs : s.tokens with - | ⟨x, - | ⟨y, rest⟩⟩
    · exact absurd h (not_gives_sentences hs)
    · rw [(gives_sentences_mark hs h).2]
      exact .refl _
    · obtain ⟨statement, u, hstatement, h⟩ := gives_sentences_succ hs h
      have hu := (parts.onStmt 0 0).forward.later hstatement
      rcases h with ⟨-, h⟩ | ⟨-, h⟩
      · exact hu.trans (ih h)
      · refine hu.trans ?_
        rcases gives_afterStatement h with ⟨p, more, hmore, h⟩ | ⟨-, -, h⟩
        · obtain ⟨found, -, h⟩ := gives_inFront h
          have hskip : Reading.Later u (u.withTokens more) :=
            .of_eq (by rw [hmore]; exact List.suffix_cons _ _) rfl
          exact hskip.trans (ih h)
        · obtain ⟨found, -, h⟩ := gives_inFront h
          exact ih h

theorem passage_nil (depth : Nat) (s : Reading) : Passage depth s [] [] s where
  opens h := h
  functions _ h := .inl h
  run {_ _ fuel} _ _ hfuel := ⟨fuel, hfuel, (run_inFront_nil _ _).symm⟩

theorem Passage.append {depth : Nat} {s t u : Reading} {tokens more : Tokens}
    {found later : List Stmt} (h : Passage depth s tokens found t)
    (h' : Passage depth t more later u) : Passage depth s (tokens ++ more) (found ++ later) u where
  opens hopen := by
    rw [List.append_assoc]
    exact h.opens (h'.opens hopen)
  functions f hf := by
    rcases h'.functions f hf with hf | hf
    · exact h.functions f hf
    · exact .inr hf
  run {depth' last fuel} hdepth hopen hfuel := by
    rw [List.append_assoc] at hfuel ⊢
    obtain ⟨fuel₁, hfuel₁, heq₁⟩ := h.run hdepth (h'.opens hopen) hfuel
    obtain ⟨fuel₂, hfuel₂, heq₂⟩ := h'.run hdepth hopen hfuel₁
    refine ⟨fuel₂, hfuel₂, ?_⟩
    rw [heq₁, run_inFront_of_run_eq heq₂, run_inFront_inFront]

theorem Passage.of_le {depth depth' : Nat} {tokens : Tokens} {found : List Stmt}
    (h : Passage depth s tokens found t) (hdepth : depth ≤ depth') :
    Passage depth' s tokens found t where
  opens := h.opens
  functions := h.functions
  run hle := h.run (Nat.le_trans hdepth hle)

/-- What can be read as a piece is a passage. -/
theorem passage_of_gives {depth rounds : Nat} {p : Position} {found : List Stmt} {piece : Tokens}
    (h : Gives (sentences (readStmt depth) rounds) (s.withTokens (piece ++ [mark p])) found t) :
    Passage depth s piece found t where
  opens {later} hopen := by
    rcases piece with - | ⟨⟨token, q⟩, piece⟩
    · exact hopen
    · cases token with
      | word word =>
        rintro rfl
        cases rounds with
        | zero => exact gives_fail.1 h
        | succ rounds =>
          obtain ⟨y, others, hy⟩ : ∃ y others, piece ++ [mark p] = y :: others :=
            List.exists_cons_of_ne_nil (by simp)
          rw [List.cons_append, hy] at h
          obtain ⟨statement, u, hstatement, -⟩ := gives_sentences_succ rfl h
          exact not_gives_readStmt_else rfl hstatement
      | _ => trivial
  functions _ := (later_of_gives_sentences h).mem_functions
  run hdepth hopen hfuel := (run_statementsUpTo hdepth h rfl).2 hopen hfuel

theorem passage_of_run {depth : Nat} (rounds : Nat) (p : Position) {found : List Stmt}
    {piece : Tokens} (h : Gives (sentences (readStmt depth) rounds)
      (s.withTokens (piece ++ [mark p])) found (t.withTokens [mark p])) :
    Passage depth s piece found t := by
  have := passage_of_gives h
  exact ⟨this.opens, this.functions, this.run⟩

/-- A block that is a passage up to its closing brace. -/
theorem gives_blockRest {depth depth' : Nat} {found : List Stmt} {tokens rest : Tokens}
    {q : Position} (h : Passage depth s tokens found t) (hdepth : depth ≤ depth') :
    Gives (blockRest (readStmt depth')) (s.withTokens (tokens ++ mark q :: rest)) found
      { t with locals := s.locals, tokens := rest } := by
  have hopen : Open (mark q :: rest) := trivial
  obtain ⟨fuel', hfuel', heq⟩ := h.run hdepth hopen
    (Nat.lt_succ_self (tokens ++ mark q :: rest).length)
  obtain ⟨fuel, rfl⟩ : ∃ k, fuel' = k + 1 := ⟨fuel' - 1, by omega⟩
  have hclose : Gives (statementsUpTo (readStmt depth') (fuel + 1))
      (t.withTokens (mark q :: rest)) [] (t.withTokens rest) := by
    rw [Gives, statementsUpTo_succ, run_acceptOr rfl]
    rfl
  have hbody : Gives (inFront found (statementsUpTo (readStmt depth') (fuel + 1)))
      (t.withTokens (mark q :: rest)) found (t.withTokens rest) := by
    unfold inFront
    rw [gives_bind_of_run hclose]
    exact gives_pure.2 ⟨(List.append_nil _).symm, rfl⟩
  rw [Gives, ← heq] at hbody
  unfold blockRest
  rw [gives_bind_of_run (r := get) rfl]
  unfold inScope
  rw [gives_bind_of_run (r := get) rfl]
  refine gives_bind.2 ⟨found, _, hbody, ?_⟩
  rw [gives_bind_of_run (r := modify _) rfl]
  exact gives_pure.2 ⟨rfl, rfl⟩

end Rulebook.Script.Reader
