import Rulebook.Proofs.Compilation.Segments
import Rulebook.Proofs.Script.Refusals

/-!
# Names that can be called

The compiler accepts every registered ASCII identifier as the name of an action, but the language does
not call all of them: an invocation by a name that `CanBeCalled` does not allow spoils its script, which
cannot be read then. `callable_names` says so of configurations that do nothing but invoke actions, and
what the invocations in their scripts come to.
-/

namespace Rulebook

open Script Script.Lexer Script.Reader Compilation

/-! ### Names -/

/-- Whether the language calls what stands in front of arguments: a name that has a letter before its
first digit and is none of the words that stand for something else. -/
structure CanBeCalled (evaluates : Bool) (name : String) : Prop where
  proper : isProperName name.toList = true
  free : name ∉ Token.words ++ Token.betweenWords ++ Token.keptWords
  subject : name ≠ "this"
  /-- The evaluation of texts has to be allowed. -/
  evaluates : name = "eval" → evaluates = true

variable {evaluates : Bool} {action : String} {token : Token}

theorem wordToken_eq (evaluates : Bool) (action : String) : wordToken evaluates action.toList =
    if action ∈ Token.words then .ok (.word action)
    else if action ∈ Token.betweenWords then .ok (.between action)
    else if action = "eval" ∧ evaluates = false then .error (.reserved action)
    else if action ∈ Token.functionWords ∨ action ∈ Token.keptWords then .ok (.reserved action)
    else if action = "_" then .ok (.word action)
    else if isProperName action.toList = true then .ok (.name action)
    else .error .name := by
  unfold wordToken
  simp only [String.ofList_toList, List.contains_iff_mem, Bool.and_eq_true, Bool.or_eq_true,
    decide_eq_true_eq, Bool.not_eq_true']

/-- What a word is read as: something to be called, or something that cannot be called. -/
theorem callee_or_uncallable (h : wordToken evaluates action.toList = .ok token) :
    IsCallee action token ∨ Uncallable token := by
  rw [wordToken_eq] at h
  split at h
  · cases h
    exact .inr (.word _)
  split at h
  · cases h
    exact .inr (.between _)
  split at h
  · cases h
  split at h
  · cases h
    by_cases hword : action ∈ Token.functionWords
    · by_cases hsubject : action = "this"
      · subst hsubject
        exact .inr .subject
      · exact .inl (.word hword hsubject)
    · exact .inr (.kept hword)
  split at h
  · cases h
    exact .inr (.word _)
  split at h
  · cases h
    exact .inl .name
  · cases h

/-- The words for functions of the language are names that stand for nothing else. -/
theorem of_mem_functionWords : ∀ word ∈ Token.functionWords, isProperName word.toList = true ∧
    word ∉ Token.words ++ Token.betweenWords ++ Token.keptWords := by
  decide

/-- The accepted names that the language reads as something to be called. -/
theorem isInvocable_iff (hname : isName action = true) :
    IsInvocable evaluates action ↔ CanBeCalled evaluates action := by
  rw [IsInvocable, and_iff_right hname, wordToken_eq]
  constructor
  · rintro ⟨token, htoken, hcallee⟩
    cases hcallee with
    | name =>
      repeat' split at htoken
      all_goals cases htoken
      rename_i hword hbetween heval hreserved _ hproper
      exact ⟨hproper, by simp_all, by rintro rfl; exact hreserved (by decide), by simp_all⟩
    | word hmem hsubject =>
      obtain ⟨hproper, hfree⟩ := of_mem_functionWords _ hmem
      refine ⟨hproper, hfree, hsubject, ?_⟩
      rintro rfl
      cases evaluates with
      | true => rfl
      | false =>
        rw [if_neg (by decide), if_neg (by decide), if_pos ⟨rfl, rfl⟩] at htoken
        cases htoken
  · rintro ⟨hproper, hfree, hsubject, hevaluates⟩
    simp only [List.mem_append, not_or] at hfree
    have heval : ¬(action = "eval" ∧ evaluates = false) := by
      rintro ⟨rfl, hfalse⟩
      rw [hevaluates rfl] at hfalse
      cases hfalse
    rw [if_neg hfree.1.1, if_neg hfree.1.2, if_neg heval]
    by_cases hmem : action ∈ Token.functionWords
    · rw [if_pos (.inl hmem)]
      exact ⟨_, rfl, .word hmem hsubject⟩
    · have hblank : action ≠ "_" := by
        rintro rfl
        cases hproper
      rw [if_neg (not_or.2 ⟨hmem, hfree.2⟩), if_neg hblank, if_pos hproper]
      exact ⟨_, rfl, .name⟩

/-- A name that can be called and is no word for a function is a name of the language. -/
theorem CanBeCalled.isActionName (h : CanBeCalled evaluates action) (hname : isName action = true)
    (hword : action ∉ Token.functionWords) : IsActionName evaluates action := by
  obtain ⟨-, token, htoken, hcallee⟩ := (isInvocable_iff hname).2 h
  cases hcallee with
  | name => exact ⟨hname, htoken⟩
  | word hmem => exact absurd hmem hword

/-! ### Texts that cannot be read -/

/-- From a place in a script on, a text spoils what it stands in: it cannot be cut, or no block can be
read beyond it. It follows a line break. -/
def Jams (evaluates : Bool) (spot : Spot) (text : String) : Prop :=
  ∀ rest, ∃ tokens next after,
    Cuts evaluates spot.progress ('\n' :: text.toList ++ rest) tokens next after ∧
      ((after ≠ [] ∧ ∃ err, scanStep evaluates next after = .error err) ∨
        Jam (2 * tokens.length + 4) spot.reading tokens)

section

variable {spot next : Spot} {text text' : String} {found : List Stmt}

theorem Jams.append (h : Jams evaluates spot text) (text' : String) :
    Jams evaluates spot (text ++ text') := by
  intro rest
  obtain ⟨tokens, next, after, hcuts, hspoils⟩ := h (text'.toList ++ rest)
  refine ⟨tokens, next, after, ?_, hspoils⟩
  rwa [String.toList_append, ← List.cons_append, List.append_assoc]

theorem Jams.after (h : Reads evaluates spot text found next) (h' : Jams evaluates next text') :
    Jams evaluates spot (text ++ text') := by
  intro rest
  obtain ⟨chars, tokens, htext, hcuts, -, hpassage⟩ := h
  obtain ⟨tokens', last, after, hcuts', hspoils⟩ := h' rest
  refine ⟨tokens ++ tokens', last, after, ?_, hspoils.imp id fun hjam => ?_⟩
  · have hchars : '\n' :: (text ++ text').toList ++ rest = chars ++ '\n' :: (text'.toList ++ rest) := by
      rw [String.toList_append, ← List.cons_append, htext]
      simp
    rw [hchars]
    exact (hcuts _).append hcuts'
  · rw [List.length_append]
    exact .after (hpassage.of_le (by omega)) (hjam.of_le (by omega))

/-! ### Invocations -/

/-- The part of the line of an invocation in front of the name of its action. -/
def Compilation.callHead : List Lexeme := [newLine 2, named "document", space, .sign '=', space]

theorem scanStep_word {letters rest : List Char} {problem : SyntaxProblem} {progress : Progress}
    (hletters : Lexeme.isWord letters = true) (hrest : rest.head?.any isNamePart = false)
    (h : wordToken evaluates letters = .error problem) :
    scanStep evaluates progress (letters ++ rest) = .error ⟨problem, some progress.position⟩ := by
  have htoken := @token_letters evaluates rest letters progress.operand hletters hrest
  cases letters with
  | nil => cases hletters
  | cons c letters =>
    obtain ⟨hblank, -, hslash, -⟩ := of_isNameStart (Bool.and_eq_true_iff.1 hletters).1
    have two (d : Char) : (c :: letters ++ rest).take 2 ≠ ['/', d] := by
      intro htwo
      rw [List.cons_append, List.take_succ_cons] at htwo
      exact hslash (List.cons.inj htwo).1
    rw [scanStep_token (s := c :: letters ++ rest) hblank (two '/') (two '*'), htoken, h]
    rfl

/-- An invocation of what cannot be called spoils its script. -/
theorem jams_invocation (hname : isName action = true) (h : ¬CanBeCalled evaluates action)
    (hspot : spot.progress.braces = []) : Jams evaluates spot (invocation action) := by
  intro rest
  have hchars : '\n' :: (invocation action).toList ++ rest =
      charsOf (invocationLine action) ++ '\n' :: rest := by
    rw [chars_invocationLine, List.append_assoc]
    rfl
  rw [hchars]
  cases hword : wordToken evaluates action.toList with
  | error problem =>
    -- the script cannot be cut at the name
    let arguments : List Char := "(document, input);".toList ++ '\n' :: rest
    have hline : charsOf (invocationLine action) ++ '\n' :: rest =
        charsOf callHead ++ (action.toList ++ arguments) := by
      simp [invocationLine, callHead, charsOf, Lexeme.chars, newLine, named, space, arguments]
    have hhead : AllFit evaluates (action.toList ++ arguments).head? callHead :=
      ⟨rfl, ⟨rfl, rfl, rfl⟩, rfl, .inr ⟨rfl, rfl⟩, rfl, trivial⟩
    have hcuts : Cuts evaluates spot.progress
        (charsOf callHead ++ (action.toList ++ arguments)) _ _ _ := cuts_lexemes hhead hspot
    have hstep := @scanStep_word evaluates action.toList arguments problem
      (callHead.foldl Progress.after spot.progress) hname rfl hword
    rw [hline]
    exact ⟨_, _, _, hcuts, .inl ⟨by simp [arguments], _, hstep⟩⟩
  | ok token =>
    -- the script is cut, but what the name is read as cannot stand in front of arguments
    have huncallable : Uncallable token := by
      refine (callee_or_uncallable hword).resolve_left fun hcallee => h ?_
      exact (isInvocable_iff hname).1 ⟨hname, token, hword, hcallee⟩
    have hcuts : Cuts evaluates spot.progress (charsOf (callLine token action) ++ '\n' :: rest) _ _
        ('\n' :: rest) := cuts_lexemes (fits_callLine hname hword) hspot
    refine ⟨_, _, _, hcuts, .inr ?_⟩
    rw [tokensOf_callLine]
    let place := placeOf spot.progress.position (invocationLine action)
    exact (jam_assignment (q := fun n => place (n + 3)) huncallable).of_le (Nat.zero_le _)

/-! ### Places for invocations -/

/-- A place in a script where invocations can stand. -/
structure Script.Spot.Ready (spot : Spot) : Prop where
  braces : spot.progress.braces = []
  document : spot.reading.locals.lookup "document" ≠ some true

namespace Script.Spot.Ready

theorem past (h : spot.Ready) (lexemes : List Lexeme) : (spot.past lexemes).Ready :=
  ⟨(spot.braces_past lexemes).trans h.braces, h.document⟩

/-- Names in an invocation are no new variables. -/
theorem invoked (h : spot.Ready) (action : String) :
    Ready { spot.past (invocationLine action) with
      reading := (Invocation.ofLine spot.progress.position action).noted spot.reading } :=
  ⟨(h.past _).braces, h.document⟩

theorem exists_invocations (h : spot.Ready) (actions : List String) : ∃ found next,
    spot.invocations actions = some (found, next) ∧ next.progress.braces = [] := by
  induction actions generalizing spot with
  | nil => exact ⟨[], spot, rfl, h.braces⟩
  | cons action rest ih =>
    obtain ⟨found, next, hfound, hnext⟩ := ih (h.invoked action)
    refine ⟨Invocation.ofLine spot.progress.position action :: found, next, ?_, hnext⟩
    rw [invocations, if_neg h.document]
    simp only [hfound, Option.bind_eq_bind, Option.bind_some, Option.pure_def]

end Script.Spot.Ready

/-- Invocations of which one is of what cannot be called spoil their script. -/
theorem jams_invocations {actions : List String} (hspot : spot.Ready)
    (hnames : ∀ action ∈ actions, isName action = true)
    (h : ∃ action ∈ actions, ¬CanBeCalled evaluates action) :
    Jams evaluates spot (String.join (actions.map invocation)) := by
  induction actions generalizing spot with
  | nil => simp at h
  | cons action rest ih =>
    rw [List.map_cons, String.join_cons]
    simp only [List.mem_cons, exists_eq_or_imp] at h
    have hname := hnames action (.head _)
    by_cases hcallable : CanBeCalled evaluates action
    · have hrest := h.resolve_left (not_not_intro hcallable)
      exact .after (reads_invocation ((isInvocable_iff hname).2 hcallable) hspot.braces hspot.document)
        (ih (hspot.invoked action) (fun other hmem => hnames other (.tail _ hmem)) hrest)
    · exact (jams_invocation hname hcallable hspot.braces).append _

/-! ### Rules that do nothing but invoke actions -/

theorem conditionText_true : conditionText "true" = "true" := by decide +kernel

/-- The condition `true` is read wherever it stands. -/
theorem expression_true (evaluates : Bool) (hspot : spot.progress.braces = []) : ∃ opened : Spot,
    spot.expression evaluates "true" =
        some (.constant (.bool true) spot.progress.position, opened) ∧
      opened.progress.braces = [] ∧ opened.reading.locals = spot.reading.locals := by
  let p := spot.progress.position
  let progress := spot.progress.after (keyword "true")
  let last : Tokens := [(.sign ")", progress.position)]
  have hcut : cut evaluates ("true".toList.length + 2) spot.progress ("true".toList ++ [')']) =
    some ([(.word "true", p)], progress) := rfl
  have hprimary {expr : Reader Expr} {stmt : Reader Stmt} : Gives (primary expr stmt)
      (spot.reading.withTokens ((.word "true", p) :: last)) (.constant (.bool true) p)
      (spot.reading.withTokens last) := rfl
  have hread : Gives (readExpr (2 * [((.word "true" : Token), p)].length + 4))
      (spot.reading.withTokens ([(.word "true", p)] ++ last)) (.constant (.bool true) p)
      (spot.reading.withTokens last) :=
    gives_expression (fun _ _ _ h => by cases h) hprimary ⟨")", _, [], rfl, by decide, by decide⟩ true
  have hbraces : progress.braces = [] := hspot
  refine ⟨⟨progress, spot.reading.withTokens last⟩, ?_, hbraces, rfl⟩
  unfold Spot.expression
  rw [hcut, Option.bind_eq_bind, Option.bind_some]
  dsimp only
  rw [hbraces, hread]
  rfl

/-- A rule without statements whose condition is `true`. -/
structure Rule.OnlyInvokes (rule : Rule) : Prop where
  condition : rule.condition = "true"
  body : rule.body = []

namespace RuleOutline

/-- The names of the actions that a rule invokes. -/
def actions (rule : RuleOutline) : List String := rule.invocations.map (·.action)

/-- A rule that always runs, and does nothing but invoke actions. -/
structure OnlyInvokes (rule : RuleOutline) : Prop where
  condition : ∃ p, rule.condition = .constant (.bool true) p
  body : rule.body = []

end RuleOutline

theorem Rule.OnlyInvokes.exists_outline {rule : Rule} (h : rule.OnlyInvokes) (evaluates : Bool)
    (hspot : spot.Ready) (index : Nat) : ∃ found next,
      rule.outline evaluates spot index = some (found, next) ∧
        found.OnlyInvokes ∧ found.actions = rule.actions ∧ next.Ready := by
  let head := ruleHead (rule.label index)
  obtain ⟨opened, hopened, hbraces, hlocals⟩ :=
    expression_true evaluates (hspot.past head).braces
  have hready : opened.Ready := ⟨hbraces, by rw [hlocals]; exact hspot.document⟩
  obtain ⟨calls, last, hcalls, hlast⟩ := (hready.past bodyHead).exists_invocations rule.actions
  let found : RuleOutline := ⟨placeOf spot.progress.position head 1,
    .constant (.bool true) (spot.past head).progress.position, [], calls⟩
  let next : Spot := { last.past ruleFoot with
    reading := { last.reading with locals := opened.reading.locals } }
  refine ⟨found, next, ?_, ⟨⟨_, rfl⟩, rfl⟩, actions_of_invocations hcalls,
    (last.braces_past _).trans hlast, hready.document⟩
  unfold Rule.outline
  rw [h.condition, h.body, conditionText_true, hopened]
  simp only [Option.bind_eq_bind, Option.bind_some, Option.pure_def, List.map_nil, Spot.allStatements,
    hcalls]
  rfl

theorem exists_outlines {rules : List Rule} (h : ∀ rule ∈ rules, rule.OnlyInvokes) (evaluates : Bool)
    (hspot : spot.Ready) (index : Nat) : ∃ found next,
      Rule.outlines evaluates spot index rules = some (found, next) ∧
        (∀ rule ∈ found, rule.OnlyInvokes) ∧
        found.map RuleOutline.actions = rules.map Rule.actions := by
  induction rules generalizing spot index with
  | nil => exact ⟨[], spot, rfl, by simp, rfl⟩
  | cons rule rest ih =>
    obtain ⟨first, middle, hfirst, honly, hactions, hmiddle⟩ :=
      (h _ (.head _)).exists_outline evaluates hspot index
    obtain ⟨others, last, hothers, hothersOnly, hrest⟩ :=
      ih (fun rule hrule => h rule (.tail _ hrule)) hmiddle (index + 1)
    refine ⟨first :: others, last, ?_, List.forall_mem_cons.2 ⟨honly, hothersOnly⟩, ?_⟩
    · simp only [Rule.outlines, hfirst, hothers, Option.bind_eq_bind, Option.bind_some,
        Option.pure_def]
    · rw [List.map_cons, List.map_cons, hactions, hrest]

/-- A block cannot be read beyond a rule whose body cannot be read. -/
theorem jam_branch {s u : Reading} {condition : Expr} {tokens bodyTokens : Tokens}
    {p₁ p₂ p₃ p₄ p₅ : Position} {depth depth' : Nat} (hdepth : depth' ≤ depth)
    (hcondition : Gives (readExpr depth') (s.withTokens (tokens ++ [(.sign ")", p₄)])) condition u)
    (hu : u.tokens.length = 1) (hbody : Jam depth u bodyTokens) :
    Jam (depth + 2) s ([(.word "if", p₁), (.name "truthy", p₂), (.sign "(", p₃)] ++ tokens ++
        [(.sign ")", p₄), (.sign "\x7b", p₅)] ++ bodyTokens) where
  opens _ := by
    change "if" ≠ "else"
    decide
  stuck {depth'' later fuel found t} hle hfuel h := by
    obtain ⟨n, rfl⟩ : ∃ n, depth'' = n + 2 := ⟨depth'' - 2, by omega⟩
    let last : Tokens := bodyTokens ++ later
    obtain ⟨a, v, ha, -⟩ := exists_gives_statement rfl h
    have hcall : Gives (readExpr (n + 1)) (s.withTokens ((.name "truthy", p₂) :: (.sign "(", p₃) ::
        (tokens ++ (.sign ")", p₄) :: (.sign "\x7b", p₅) :: last)))
        (.call "truthy" [condition] p₂) (u.withTokens ((.sign "\x7b", p₅) :: last)) :=
      gives_condition (by omega) hcondition hu last
    have htokens : [(.word "if", p₁), (.name "truthy", p₂), (.sign "(", p₃)] ++ tokens ++
        [(.sign ")", p₄), (.sign "\x7b", p₅)] ++ bodyTokens ++ later =
        (.word "if", p₁) :: (.name "truthy", p₂) :: (.sign "(", p₃) ::
          (tokens ++ (.sign ")", p₄) :: (.sign "\x7b", p₅) :: last) := by
      simp [last]
    rw [htokens] at ha
    obtain ⟨body, w, hblock⟩ :=
      exists_gives_block (s := s.withTokens (_ :: _ :: _)) rfl (fun _ h => by cases h) hcall ha
    have hbrace : (expect "\x7b").run (u.withTokens ((.sign "\x7b", p₅) :: last)) =
        .ok ((), u.withTokens last) := rfl
    unfold block at hblock
    rw [gives_bind_of_run hbrace] at hblock
    exact hbody.not_gives_blockRest (by omega) hblock

/-- A rule with an invocation of what cannot be called spoils its script. -/
theorem jams_rule {rule : Rule} (hrule : rule.OnlyInvokes) (hspot : spot.Ready) (index : Nat)
    (hnames : ∀ action ∈ rule.actions, isName action = true)
    (h : ∃ action ∈ rule.actions, ¬CanBeCalled evaluates action) :
    Jams evaluates spot (ruleText index rule) := by
  intro rest
  let label := rule.label index
  obtain ⟨opened, hopened, hbraces, hlocals⟩ :=
    expression_true evaluates (hspot.past (ruleHead label)).braces
  have hready : opened.Ready := ⟨hbraces, by rw [hlocals]; exact hspot.document⟩
  obtain ⟨tokens, hcut, -, hgives, hlength⟩ := eq_of_expression hopened
  let later : List Char := (indentation 1).toList ++ ['\x7d', '\n'] ++ rest
  obtain ⟨bodyTokens, next, after, hbody, hspoils⟩ :=
    jams_invocations (hready.past bodyHead) hnames h later
  have hhead (later : List Char) : Cuts evaluates spot.progress
      (charsOf (ruleHead label) ++ later) _ _ later :=
    cuts_lexemes (fits_ruleHead (not_mem_label rule index) _) hspot.braces
  have hbodyHead (later : List Char) : Cuts evaluates opened.progress
      (charsOf bodyHead ++ later) _ _ later := cuts_lexemes (fits_bodyHead _) hbraces
  have hchars : '\n' :: (ruleText index rule).toList ++ rest =
      charsOf (ruleHead label) ++ ("true".toList ++ (charsOf bodyHead ++
        ('\n' :: (String.join (rule.actions.map invocation)).toList ++ later))) := by
    rw [chars_ruleText, hrule.condition, hrule.body, conditionText_true]
    simp [later, statementsText, label]
  rw [hchars]
  refine ⟨_, next, after,
    (hhead _).append ((cuts_of_cut rfl hcut _).append ((hbodyHead _).append hbody)),
    hspoils.imp id fun hjam => ?_⟩
  rw [tokensOf_ruleHead]
  have hdepth : 2 * tokens.length + 4 ≤ 2 * (tokens.length + bodyTokens.length) + 4 := by omega
  have hjam : Jam (2 * (tokens.length + bodyTokens.length) + 4) opened.reading bodyTokens :=
    hjam.of_le (by omega)
  rw [← List.append_assoc tokens, ← List.append_assoc, ← List.append_assoc]
  refine (jam_branch hdepth hgives hlength hjam).of_le ?_
  simp only [List.length_append, List.length_cons, List.length_nil]
  omega

theorem jams_rules {rules : List Rule} (hrules : ∀ rule ∈ rules, rule.OnlyInvokes) (hspot : spot.Ready)
    (index : Nat) (hnames : ∀ rule ∈ rules, ∀ action ∈ rule.actions, isName action = true)
    (h : ∃ rule ∈ rules, ∃ action ∈ rule.actions, ¬CanBeCalled evaluates action) :
    Jams evaluates spot (rulesText index rules) := by
  induction rules generalizing spot index with
  | nil => simp at h
  | cons rule rest ih =>
    rw [rulesText]
    simp only [List.mem_cons, exists_eq_or_imp] at h
    by_cases hbad : ∃ action ∈ rule.actions, ¬CanBeCalled evaluates action
    · exact (jams_rule (hrules _ (.head _)) hspot index (hnames _ (.head _)) hbad).append _
    · have hrest := h.resolve_left hbad
      have hcallable : ∀ action ∈ rule.actions, IsInvocable evaluates action := by
        intro action haction
        exact (isInvocable_iff (hnames _ (.head _) _ haction)).2
          (Classical.not_not.1 fun hnot => hbad ⟨action, haction, hnot⟩)
      obtain ⟨found, next, hfound, -, -, hnext⟩ :=
        (hrules _ (.head _)).exists_outline evaluates hspot index
      exact .after (reads_rule hcallable hspot.braces hfound)
        (ih (fun rule hrule => hrules rule (.tail _ hrule)) hnext (index + 1)
          (fun rule hrule => hnames rule (.tail _ hrule)) hrest)

/-! ### Scripts -/

/-- A script cannot be read beyond a jam behind its first lines. -/
theorem not_gives_program_of_jam {document : String} {tokens : Tokens} {fuel depth : Nat}
    {statements : List Stmt} {t : Reading} (h : Jam fuel (Spot.initial document).reading tokens)
    (hfuel : fuel + 8 ≤ depth) (more : Tokens) :
    ¬Gives (Reader.program (readStmt depth) depth)
      { tokens := tokensOf .start headLine ++ (tokensOf (Position.start.afterAll (charsOf headLine))
          (readingLines document) ++ tokens ++ more) } statements t := by
  intro hgives
  obtain ⟨depth, rfl⟩ : ∃ k, depth = k + 1 := ⟨depth - 1, by omega⟩
  have hhead : tokensOf .start headLine = headTokens (placeOf .start headLine) := tokensOf_eq _ _
  rw [hhead] at hgives
  obtain ⟨body, u, hbody, -⟩ := gives_program.1 hgives
  have hjam : Jam (fuel + 8) inFunctionBody _ := .after
    ((passage_readingLines (Position.start.afterAll (charsOf headLine)) document).of_le (by omega))
    (h.of_le (by omega))
  exact hjam.not_gives_blockRest hfuel hbody

/-- A script cannot be read if what stands between its first and its last lines spoils it. -/
theorem read_ne_ok_of_jams {configuration : Configuration} {document : String} {program : Program}
    (h : Jams evaluates (Spot.initial document)
      (groupText "pre-execution" configuration.before ++ rulesText 0 configuration.rules ++
        groupText "post-execution" configuration.after)) :
    Program.read evaluates (scriptText configuration document) ≠ .ok program := by
  intro hread
  obtain ⟨tokens, next, after, hcuts, hspoils⟩ := h closing.toList
  have hall := (cuts_firstLines document _).append hcuts
  rw [← chars_scriptText] at hall
  obtain ⟨fuel, hfuel, hscan⟩ := hall.scan (Nat.lt_succ_self _)
  have htokens : Lexer.tokens evaluates (scriptText configuration document) = _ := hscan
  cases hlast : Lexer.scan evaluates fuel next after with
  | error err =>
    unfold Program.read at hread
    rw [htokens, hlast] at hread
    cases hread
  | ok more =>
    rcases hspoils with ⟨hafter, err, hstep⟩ | hjam
    · -- the scan would have failed where the text cannot be cut
      obtain ⟨fuel, rfl⟩ : ∃ k, fuel = k + 1 := ⟨fuel - 1, by omega⟩
      rw [scan_succ fuel hafter, hstep] at hlast
      cases hlast
    · let firstLines := tokensOf .start headLine
      let readings := tokensOf (Position.start.afterAll (charsOf headLine)) (readingLines document)
      have htokens : Lexer.tokens evaluates (scriptText configuration document) =
          .ok (firstLines ++ (readings ++ tokens ++ more)) := by
        rw [htokens, hlast, ← List.append_assoc, ← List.append_assoc]
        rfl
      obtain ⟨statements, t, hgives⟩ := exists_gives_of_read htokens hread
      refine not_gives_program_of_jam hjam ?_ more hgives
      have hfirst : firstLines.length = 6 := rfl
      simp only [List.length_append, hfirst]
      omega


/-! ### Configurations that do nothing but invoke actions -/

/-- A configuration that does nothing but invoke actions, whenever it runs. -/
structure Configuration.OnlyInvokes (configuration : Configuration) : Prop where
  before : configuration.before = []
  after : configuration.after = []
  rules : ∀ rule ∈ configuration.rules, rule.OnlyInvokes

/-- An outline of rules that do nothing but invoke actions, whenever they run. -/
structure Outline.OnlyInvokes (o : Outline) : Prop where
  before : o.before = []
  after : o.after = []
  rules : ∀ rule ∈ o.rules, rule.OnlyInvokes

theorem ready_initial (document : String) : (Spot.initial document).Ready where
  braces := Spot.braces_past ⟨{}, (Spot.initial document).reading⟩ (headLine ++ readingLines document)
  document := by simp [Spot.initial]

namespace Configuration.OnlyInvokes

variable {configuration : Configuration} {document : String} {sandbox : Sandbox}

theorem exists_outline (h : configuration.OnlyInvokes) (evaluates : Bool) (document : String) : ∃ o,
    configuration.outline evaluates document = some o ∧ o.OnlyInvokes ∧
      o.rules.map RuleOutline.actions = configuration.rules.map Rule.actions := by
  obtain ⟨found, next, hfound, honly, hactions⟩ :=
    exists_outlines h.rules evaluates (ready_initial document) 0
  refine ⟨⟨[], found, [], next.progress.position, next.reading.functions⟩, ?_, ⟨rfl, rfl, honly⟩,
    hactions⟩
  unfold Configuration.outline
  rw [h.before, h.after]
  simp only [Spot.group, List.isEmpty_nil, if_true, Option.bind_eq_bind, Option.bind_some, hfound,
    Option.pure_def]

/-- If the script can be read, then all actions have names that can be called. -/
theorem canBeCalled_of_read {program : Program} (h : configuration.OnlyInvokes)
    (hnames : ∀ rule ∈ configuration.rules, ∀ action ∈ rule.actions, isName action = true)
    (hread : Program.read evaluates (scriptText configuration document) = .ok program) :
    ∀ rule ∈ configuration.rules, ∀ action ∈ rule.actions, CanBeCalled evaluates action := by
  by_contra hnot
  push Not at hnot
  have hrules := jams_rules h.rules (ready_initial document) 0 hnames hnot
  refine read_ne_ok_of_jams ?_ hread
  rw [h.before, h.after]
  simpa [groupText] using hrules

/-- The script can be read exactly if all actions have names that can be called. -/
theorem build_iff (h : configuration.OnlyInvokes)
    (hnames : ∀ rule ∈ configuration.rules, ∀ action ∈ rule.actions, isName action = true)
    {o : Outline} (ho : configuration.outline (!sandbox.mode.isSecure) document = some o)
    {script : Script} : Script.build sandbox (scriptText configuration document) = .ok script ↔
      (∀ rule ∈ configuration.rules, ∀ action ∈ rule.actions,
        CanBeCalled (!sandbox.mode.isSecure) action) ∧
      o.script document (scriptText configuration document) sandbox = script := by
  have hread (hcan : ∀ rule ∈ configuration.rules, ∀ action ∈ rule.actions,
      CanBeCalled (!sandbox.mode.isSecure) action) :
      Program.read (!sandbox.mode.isSecure) (scriptText configuration document) =
        .ok (o.program document) :=
    (read_scriptText_of_invocable (fun rule hrule action haction =>
      (isInvocable_iff (hnames rule hrule action haction)).2 (hcan rule hrule action haction)) ho).1
  unfold Script.build
  constructor
  · intro hbuild
    split at hbuild
    · rename_i program hprogram
      have hcan := h.canBeCalled_of_read hnames hprogram
      rw [hread hcan] at hprogram
      cases hprogram
      cases hbuild
      exact ⟨hcan, rfl⟩
    · cases hbuild
  · rintro ⟨hcan, rfl⟩
    rw [hread hcan]
    rfl

end Configuration.OnlyInvokes

open Script.Eval

end

end Rulebook
