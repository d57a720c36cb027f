import Rulebook.Proofs.Compilation.Outline

/-!
# The passages of a compiled script

Every part of a compiled script is a passage of the body of its function: the statements of its
outline, the branches of the rules and the lines around them. `exists_read` puts them together.
-/

namespace Rulebook

open Script Script.Lexer Script.Reader Compilation

/-! ### Cutting a part -/

/-- What has been cut up to a boundary is cut in the same way whatever stands beyond it. -/
theorem Script.Lexer.cuts_of_cut {evaluates : Bool} {d : Char} (hd : isBoundary d) {fuel : Nat}
    {progress last : Progress} {s : List Char} {found : List (Token × Position)}
    (h : cut evaluates fuel progress (s ++ [d]) = some (found, last)) (rest : List Char) :
    Cuts evaluates progress (s ++ d :: rest) found last (d :: rest) := by
  refine Cuts.beyond (r := []) hd ?_ rest
  induction fuel generalizing progress s found with
  | zero => cases h
  | succ fuel ih =>
    rcases s with - | ⟨c, s⟩
    · cases h
      exact .done _ _
    · obtain ⟨e, others, he⟩ : ∃ e others, s ++ [d] = e :: others :=
        List.exists_cons_of_ne_nil (by simp)
      rw [List.cons_append, he, cut.eq_4 _ _ _ _ (by simp) (by simp), ← he, ← List.cons_append] at h
      cases hstep : scanStep evaluates progress (c :: s ++ [d]) with
      | error err =>
        rw [hstep] at h
        cases h
      | ok result =>
        obtain ⟨first, next, after⟩ := result
        rw [hstep] at h
        simp only [Option.bind_eq_bind, Option.bind_eq_some_iff, Prod.exists, Option.pure_def,
          Option.some.injEq, Prod.mk.injEq] at h
        obtain ⟨more, last', hcut, rfl, rfl⟩ := h
        have hafter : after ≠ [] := by
          rintro rfl
          cases fuel <;> cases hcut
        obtain ⟨s', rfl, -⟩ := scanStep_append (List.cons_ne_nil c s) hd hstep
          (List.length_pos_iff.2 hafter)
        exact .step (by simp) hstep (ih hcut)

/-! ### Reading a part -/

/-- Tokens with the places of their numbers, which begin at `n`. -/
def Compilation.placed (place : Nat → Position) (n : Nat) : List Token → Tokens
  | [] => []
  | token :: rest => (token, place n) :: placed place (n + 1) rest

theorem Compilation.placed_eq (tokens : Tokens) (place : Nat → Position) (n : Nat)
    (h : ∀ i x, tokens[i]? = some x → place (n + i) = x.2) :
    placed place n (tokens.map (·.1)) = tokens := by
  induction tokens generalizing n with
  | nil => rfl
  | cons x tokens ih =>
    rw [List.map_cons, placed, ih (n + 1) fun i y hy => ?_]
    · exact congrArg (fun p => (x.1, p) :: tokens) (h 0 x rfl)
    · rw [← h (i + 1) y hy, Nat.add_assoc, Nat.add_comm 1 i]

theorem Compilation.map_fst_tokensOf (start : Position) (lexemes : List Lexeme) :
    (tokensOf start lexemes).map (·.1) = lexemes.filterMap Lexeme.token? := by
  induction lexemes generalizing start with
  | nil => rfl
  | cons lexeme rest ih =>
    rw [tokensOf, List.map_append, ih, List.filterMap_cons]
    cases lexeme.token? <;> rfl

/-- The tokens of lexemes and their places. -/
theorem Compilation.tokensOf_eq (start : Position) (lexemes : List Lexeme) :
    tokensOf start lexemes =
      placed (placeOf start lexemes) 0 (lexemes.filterMap Lexeme.token?) := by
  rw [← map_fst_tokensOf start, placed_eq]
  intro i x hx
  rw [placeOf, Nat.zero_add, hx]
  rfl

/-- The line of an invocation whose action is read as a certain token. -/
def Compilation.callLine (token : Token) (action : String) : List Lexeme :=
  [newLine 2, named "document", space, .sign '=', space, .word action.toList token, .sign '(',
    named "document", .sign ',', space, named "input", .sign ')', .sign ';']

namespace Script.Reader

variable {s t u : Reading}

/-- What is known in the function of a script before its first statement. -/
def inFunctionBody : Reading :=
  { tokens := [], locals := [("input_json", false)], inFunction := true }

section

variable (p : Nat → Position)

theorem passage_declareInput : Passage 6 inFunctionBody
    [(.word "let", p 0), (.name "input", p 1), (.sign "=", p 2), (.sign "(", p 3),
      (.sign ")", p 4), (.sign ";", p 5)]
    [.declare "input" (some (.constant .unit (p 3))) false (p 1)]
    { inFunctionBody with locals := [("input", false), ("input_json", false)] } := passage_of_run 2 (p 0) rfl

theorem passage_attempt : Passage 8
    { inFunctionBody with locals := [("input", false), ("input_json", false)] }
    [(.word "try", p 6), (.sign "\x7b", p 7), (.name "input", p 8), (.sign "=", p 9),
      (.name "json_parse", p 10), (.sign "(", p 11), (.name "input_json", p 12), (.sign ")", p 13),
      (.sign ";", p 14), (.sign "\x7d", p 15), (.word "catch", p 16), (.sign "(", p 17),
      (.name "err", p 18), (.sign ")", p 19), (.sign "\x7b", p 20), (.word "return", p 21),
      (.name "input_json", p 22), (.sign ";", p 23), (.sign "\x7d", p 24)]
    [.attempt
      [.assign (.name "input" (p 8)) none
        (.call "json_parse" [.name "input_json" (p 12)] (p 10)) (p 9)]
      (some "err") [.answer (some (.name "input_json" (p 22)))]]
    { inFunctionBody with locals := [("input", false), ("input_json", false)] } :=
  passage_of_run 2 (p 0) rfl

theorem passage_declareDocument (document : String) : Passage 7
    { inFunctionBody with locals := [("input", false), ("input_json", false)] }
    [(.word "let", p 25), (.name "document", p 26), (.sign "=", p 27), (.name "json_parse", p 28),
      (.sign "(", p 29), (.text document, p 30), (.sign ")", p 31), (.sign ";", p 32)]
    [.declare "document"
      (some (.call "json_parse" [.constant (.text document) (p 30)] (p 28))) false (p 26)]
    (Spot.initial document).reading := passage_of_run 2 (p 0) rfl

end

/-- The lines that read the input and the document are a passage. -/
theorem passage_readingLines (start : Position) (document : String) :
    Passage 8 inFunctionBody (tokensOf start (readingLines document))
      (readingStmts start document) (Spot.initial document).reading := by
  let place := placeOf start (readingLines document)
  have hpassage := ((passage_declareInput place).of_le (by decide : 6 ≤ 8)).append
    ((passage_attempt place).append ((passage_declareDocument place document).of_le (by decide)))
  rw [tokensOf_eq]
  exact hpassage

/-- The tokens of the line of an invocation whose action is read as a certain token. -/
theorem tokensOf_callLine (start : Position) (token : Token) (action : String) :
    tokensOf start (callLine token action) =
      let i := Invocation.ofLine start action
      let place := placeOf start (invocationLine action)
      [(.name "document", i.target), (.sign "=", i.sign), (token, i.call), (.sign "(", place 3),
        (.name "document", i.document), (.sign ",", place 5), (.name "input", i.input),
        (.sign ")", place 7), (.sign ";", place 8)] := rfl

/-- The line of an invocation is a passage unless the document is a constant. -/
theorem passage_invocation (start : Position) {action : String} {token : Token}
    (htoken : IsCallee action token) (h : s.locals.lookup "document" ≠ some true) :
    Passage 5 s (tokensOf start (callLine token action)) [(Invocation.ofLine start action).stmt]
      ((Invocation.ofLine start action).noted s) := by
  let i := Invocation.ofLine start action
  let place := placeOf start (invocationLine action)
  have htokens : tokensOf start (callLine token action) =
      [(.name "document", i.target), (.sign "=", i.sign), (token, i.call),
        (.sign "(", place 3), (.name "document", i.document), (.sign ",", place 5),
        (.name "input", i.input), (.sign ")", place 7)] ++ [(.sign ";", place 8)] :=
    tokensOf_callLine start token action
  rw [htokens]
  let last : Tokens := [(.sign ";", place 8), mark start]
  have hstop (sign : String) (hsign : sign ∈ stops) (p : Position) (v : Reading) (rest : Tokens) :
      AtStop (v.withTokens ((.sign sign, p) :: rest)) := atStop_of hsign rfl
  have hdocument (v : Reading) (p q : Position) (rest : Tokens) :
      Gives (readExpr 1) (v.withTokens ((.name "document", p) :: (.sign ",", q) :: rest))
        (.name "document" p) ((v.noting "document" p).withTokens ((.sign ",", q) :: rest)) :=
    gives_readExpr_name rfl (hstop "," (by simp [stops]) _ _ _)
  have hinput (v : Reading) (p q : Position) (rest : Tokens) :
      Gives (readExpr 1) (v.withTokens ((.name "input", p) :: (.sign ")", q) :: rest))
        (.name "input" p) ((v.noting "input" p).withTokens ((.sign ")", q) :: rest)) :=
    gives_readExpr_name rfl (hstop ")" (by simp [stops]) _ _ _)
  have harguments : Gives (arguments (readExpr 1))
      ((s.noting "document" i.target).withTokens ((.name "document", i.document) ::
        (.sign ",", place 5) :: (.name "input", i.input) :: (.sign ")", place 7) :: last))
      [.name "document" i.document, .name "input" i.input] ((i.noted s).withTokens last) :=
    gives_arguments_two (u := (i.noted s).withTokens ((.sign ")", place 7) :: last))
      (List.cons_ne_nil _ _) rfl (hdocument _ _ _ _) rfl rfl (hinput _ _ _ _) rfl
  have hcall : Gives (readExpr 2) ((s.noting "document" i.target).withTokens
      ((token, i.call) :: (.sign "(", place 3) :: (.name "document", i.document) ::
        (.sign ",", place 5) :: (.name "input", i.input) :: (.sign ")", place 7) :: last))
      (.call action [.name "document" i.document, .name "input" i.input] i.call)
      ((i.noted s).withTokens last) :=
    gives_readExpr_callee htoken rfl harguments (hstop ";" (by simp [stops]) _ _ _)
  have hassign : Gives (readStmt 3) (s.withTokens ((.name "document", i.target) ::
      (.sign "=", i.sign) :: (token, i.call) :: (.sign "(", place 3) ::
      (.name "document", i.document) :: (.sign ",", place 5) :: (.name "input", i.input) ::
      (.sign ")", place 7) :: last)) i.stmt ((i.noted s).withTokens last) :=
    gives_readStmt_assign rfl hcall h
  exact (passage_of_semicolon hassign (by simp [Invocation.stmt])).of_le (by decide)

/-- The line that answers with the document is a passage. -/
theorem passage_answerLine (start : Position) (s : Reading) :
    Passage 4 s (tokensOf start answerLine) [answerStmt start]
      (s.noting "document" (placeOf start answerLine 3)) := by
  let place := placeOf start answerLine
  have htokens : tokensOf start answerLine =
      [(.word "return", place 0), (.name "json_stringify", place 1), (.sign "(", place 2),
        (.name "document", place 3), (.sign ")", place 4)] ++ [(.sign ";", place 5)] := rfl
  rw [htokens]
  let last : Tokens := [(.sign ";", place 5), mark start]
  have hstop (sign : String) (hsign : sign ∈ stops) (p : Position) (v : Reading) (rest : Tokens) :
      AtStop (v.withTokens ((.sign sign, p) :: rest)) := atStop_of hsign rfl
  have harguments : Gives (arguments (readExpr 1))
      (s.withTokens ((.name "document", place 3) :: (.sign ")", place 4) :: last))
      [.name "document" (place 3)] ((s.noting "document" (place 3)).withTokens last) :=
    gives_arguments_one
      (t := (s.noting "document" (place 3)).withTokens ((.sign ")", place 4) :: last)) rfl
      (gives_readExpr_name rfl (hstop ")" (by simp [stops]) _ _ _)) rfl
  have hcall : Gives (readExpr 2) (s.withTokens ((.name "json_stringify", place 1) ::
      (.sign "(", place 2) :: (.name "document", place 3) :: (.sign ")", place 4) :: last))
      (.call "json_stringify" [.name "document" (place 3)] (place 1))
      ((s.noting "document" (place 3)).withTokens last) :=
    gives_readExpr_call rfl harguments (hstop ";" (by simp [stops]) _ _ _)
  have hanswer : Gives (readStmt 3) (s.withTokens ((.word "return", place 0) ::
      (.name "json_stringify", place 1) :: (.sign "(", place 2) :: (.name "document", place 3) ::
      (.sign ")", place 4) :: last)) (answerStmt start)
      ((s.noting "document" (place 3)).withTokens last) :=
    gives_readStmt_answer rfl (fun _ h => by cases h) hcall
  exact (passage_of_semicolon hanswer (by simp [answerStmt])).of_le (by decide)

/-- The condition of a rule, whatever stands in its block. -/
theorem gives_condition {condition : Expr} {tokens : Tokens} {p₂ p₃ p₄ p₅ : Position}
    {depth depth' : Nat} (hdepth : depth' ≤ depth)
    (hcondition : Gives (readExpr depth') (s.withTokens (tokens ++ [(.sign ")", p₄)])) condition u)
    (hu : u.tokens.length = 1) (later : Tokens) :
    Gives (readExpr (depth + 1)) (s.withTokens ((.name "truthy", p₂) :: (.sign "(", p₃) ::
        (tokens ++ (.sign ")", p₄) :: (.sign "\x7b", p₅) :: later)))
      (.call "truthy" [condition] p₂) (u.withTokens ((.sign "\x7b", p₅) :: later)) := by
  have parts := parts_of_le hdepth
  -- the closing parenthesis is left
  have hleft : u.tokens = [(.sign ")", p₄)] ++ [] := by
    obtain ⟨before, hbefore⟩ := ((parts.onExpr 0 0).forward.later hcondition).tokens
    change before ++ u.tokens = tokens ++ [(.sign ")", p₄)] at hbefore
    rw [(List.append_inj' hbefore hu).2]
    rfl
  let last : Tokens := (.sign "\x7b", p₅) :: later
  have hcondition' : Gives (readExpr depth) (s.withTokens (tokens ++ (.sign ")", p₄) :: last))
      condition (u.withTokens ((.sign ")", p₄) :: last)) := by
    have : Gives (readExpr depth) (s.withTokens (tokens ++ [(.sign ")", p₄)] ++ last)) condition
        (u.withTokens ([(.sign ")", p₄)] ++ last)) :=
      (parts.onExpr _ _).frame hcondition (List.append_nil _).symm hleft (Nat.le_refl _)
        (Nat.le_refl _) (.inl (List.cons_ne_nil _ _))
    rwa [List.append_assoc] at this
  have harguments : Gives (arguments (readExpr depth))
      (s.withTokens (tokens ++ (.sign ")", p₄) :: last)) [condition] (u.withTokens last) :=
    gives_arguments_one (t := u.withTokens ((.sign ")", p₄) :: last))
      (isSign_head_of_gives_readExpr hcondition') hcondition' rfl
  exact gives_readExpr_call rfl harguments ⟨"\x7b", by simp [stops], _, _, rfl⟩

/-- A rule is a passage if its condition is an expression and its body a passage. -/
theorem passage_branch {condition : Expr} {body : List Stmt} {tokens bodyTokens : Tokens}
    {p₁ p₂ p₃ p₄ p₅ p₆ : Position} {depth depth' : Nat} {v : Reading} (hdepth : depth' ≤ depth)
    (hcondition : Gives (readExpr depth') (s.withTokens (tokens ++ [(.sign ")", p₄)])) condition u)
    (hu : u.tokens.length = 1) (hbody : Passage depth u bodyTokens body v) :
    Passage (depth + 2) s ([(.word "if", p₁), (.name "truthy", p₂), (.sign "(", p₃)] ++ tokens ++
        [(.sign ")", p₄), (.sign "\x7b", p₅)] ++ bodyTokens ++ [(.sign "\x7d", p₆)])
      [.branch (.call "truthy" [condition] p₂) body []] { v with locals := u.locals } := by
  let last : Tokens := (.sign "\x7b", p₅) :: (bodyTokens ++ [mark p₆, mark p₆])
  have hcall : Gives (readExpr (depth + 1)) (s.withTokens ((.name "truthy", p₂) ::
      (.sign "(", p₃) :: (tokens ++ (.sign ")", p₄) :: last)))
      (.call "truthy" [condition] p₂) (u.withTokens last) := gives_condition hdepth hcondition hu _
  have hblock : Gives (block (readStmt (depth + 1))) (u.withTokens last) body
      ({ v with locals := u.locals }.withTokens [mark p₆]) := by
    have hbrace : (expect "\x7b").run (u.withTokens last) =
        .ok ((), u.withTokens (bodyTokens ++ [mark p₆, mark p₆])) := rfl
    unfold block
    rw [gives_bind_of_run hbrace]
    exact gives_blockRest (t := v) hbody (Nat.le_succ _)
  have hbranch : Gives (readStmt (depth + 2)) (s.withTokens ((.word "if", p₁) ::
      (.name "truthy", p₂) :: (.sign "(", p₃) :: (tokens ++ (.sign ")", p₄) :: last)))
      (.branch (.call "truthy" [condition] p₂) body [])
      ({ v with locals := u.locals }.withTokens [mark p₆]) :=
    gives_readStmt_branch rfl (fun _ h => by cases h) hcall rfl hblock trivial
  refine passage_of_endsItself (p := p₆) ?_ (by simp) (by simp) rfl
  have htokens : [(.word "if", p₁), (.name "truthy", p₂), (.sign "(", p₃)] ++ tokens ++
      [(.sign ")", p₄), (.sign "\x7b", p₅)] ++ bodyTokens ++ [(.sign "\x7d", p₆)] ++ [mark p₆] =
      (.word "if", p₁) :: (.name "truthy", p₂) :: (.sign "(", p₃) ::
        (tokens ++ (.sign ")", p₄) :: last) := by
    simp [last, mark]
  rw [htokens]
  exact hbranch

end Script.Reader

end Rulebook
