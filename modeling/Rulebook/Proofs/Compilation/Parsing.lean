import Rulebook.Proofs.Compilation.Passages

/-!
# Reading a compiled script

The text of every part of a configuration is cut and read as its outline says, `Reads`, and so are
texts in a row. `read_scriptText` says that the script has one function of its own, whose body is the
body of the outline, besides anonymous functions.
-/

namespace Rulebook

open Script Script.Lexer Script.Reader Compilation

/-- From one place in a script to another, a text has some statements. It follows a line break and
ends with one. -/
def Reads (evaluates : Bool) (spot : Spot) (text : String) (found : List Stmt) (next : Spot) : Prop :=
  ∃ chars tokens, '\n' :: text.toList = chars ++ ['\n'] ∧
    (∀ rest, Cuts evaluates spot.progress (chars ++ '\n' :: rest) tokens next.progress
      ('\n' :: rest)) ∧
    next.progress.braces = [] ∧
    Passage (2 * tokens.length + 4) spot.reading tokens found next.reading

namespace Reads

variable {evaluates : Bool} {spot next last : Spot} {text text' : String}
  {found found' : List Stmt}

theorem empty (evaluates : Bool) (hspot : spot.progress.braces = []) :
    Reads evaluates spot "" [] spot :=
  ⟨[], [], rfl, fun _ => .done _ _, hspot, passage_nil _ _⟩

theorem append (h : Reads evaluates spot text found next)
    (h' : Reads evaluates next text' found' last) :
    Reads evaluates spot (text ++ text') (found ++ found') last := by
  obtain ⟨chars, tokens, htext, hcuts, -, hpassage⟩ := h
  obtain ⟨chars', tokens', htext', hcuts', hbraces, hpassage'⟩ := h'
  refine ⟨chars ++ chars', tokens ++ tokens', ?_, fun rest => ?_, hbraces, ?_⟩
  · rw [String.toList_append, ← List.cons_append, htext, List.append_assoc, List.singleton_append,
      htext', List.append_assoc]
  · have hnext : '\n' :: text'.toList ++ rest = chars' ++ '\n' :: rest := by
      rw [htext', List.append_assoc]
      rfl
    rw [List.append_assoc, ← hnext, List.cons_append]
    refine (hcuts _).append ?_
    rw [← List.cons_append, hnext]
    exact hcuts' rest
  · refine (hpassage.of_le ?_).append (hpassage'.of_le ?_)
    · rw [List.length_append]
      omega
    · rw [List.length_append]
      omega

end Reads

variable {evaluates : Bool} {spot next : Spot}

/-! ### Statements -/

theorem eq_of_statements {text : String} {found : List Stmt}
    (h : spot.statements evaluates text = some (found, next)) : ∃ tokens,
      cut evaluates (text.toList.length + 2) spot.progress ('\n' :: text.toList) =
        some (tokens, next.progress) ∧ next.progress.braces = [] ∧
      Gives (sentences (readStmt (2 * tokens.length + 4)) (tokens.length + 1))
        (spot.reading.withTokens (tokens ++ [mark next.progress.position])) found next.reading := by
  unfold Spot.statements at h
  obtain ⟨⟨tokens, progress⟩, hcut, h⟩ := Option.bind_eq_some_iff.1 h
  dsimp only at h
  split at h
  · rename_i hbraces hrun
    cases h
    exact ⟨tokens, hcut, hbraces, hrun⟩
  · cases h

theorem reads_statements {text : String} {found : List Stmt}
    (h : spot.statements evaluates text = some (found, next))
    (htext : ∃ chars, '\n' :: text.toList = chars ++ ['\n']) :
    Reads evaluates spot text found next := by
  obtain ⟨tokens, hcut, hbraces, hgives⟩ := eq_of_statements h
  obtain ⟨chars, htext⟩ := htext
  rw [htext] at hcut
  exact ⟨chars, tokens, htext, cuts_of_cut rfl hcut, hbraces, passage_of_gives hgives⟩

/-- The text of a statement is empty or ends with a line break. -/
theorem exists_emitted (depth : Nat) (statement : String) :
    ∃ chars, '\n' :: (emitted depth statement).toList = chars ++ ['\n'] := by
  unfold emitted closeStatement
  dsimp only
  split
  · exact ⟨[], rfl⟩
  · split
    · exact ⟨_, by rw [String.toList_append, ← List.cons_append]; rfl⟩
    · generalize indentation depth ++ String.ofList (closeLine _) = line
      refine ⟨'\n' :: line.toList ++ [';'], ?_⟩
      rw [String.toList_append, ← List.cons_append, List.append_assoc]
      rfl

theorem reads_allStatements {depth : Nat} {statements : List String} {found : List Stmt}
    (hspot : spot.progress.braces = [])
    (h : spot.allStatements evaluates (statements.map (emitted depth)) = some (found, next)) :
    Reads evaluates spot (statementsText depth statements) found next := by
  induction statements generalizing spot found with
  | nil =>
    cases h
    exact .empty evaluates hspot
  | cons statement rest ih =>
    rw [List.map_cons, Spot.allStatements] at h
    obtain ⟨⟨first, middle⟩, hfirst, h⟩ := Option.bind_eq_some_iff.1 h
    obtain ⟨⟨others, last⟩, hothers, h⟩ := Option.bind_eq_some_iff.1 h
    cases h
    have hread := reads_statements hfirst (exists_emitted depth statement)
    have hbraces : middle.progress.braces = [] := (eq_of_statements hfirst).choose_spec.2.1
    rw [statementsText, List.map_cons, String.join_cons]
    exact hread.append (ih hbraces hothers)

/-! ### Lexemes -/

theorem Script.Spot.braces_past (spot : Spot) (lexemes : List Lexeme) :
    (spot.past lexemes).progress.braces = spot.progress.braces := by
  unfold Spot.past
  dsimp only
  induction lexemes generalizing spot with
  | nil => rfl
  | cons lexeme rest ih => exact ih { spot with progress := spot.progress.after lexeme }

theorem Script.Spot.position_past (spot : Spot) (lexemes : List Lexeme) :
    (spot.past lexemes).progress.position = spot.progress.position.afterAll (charsOf lexemes) := by
  unfold Spot.past
  dsimp only
  induction lexemes generalizing spot with
  | nil => rfl
  | cons lexeme rest ih =>
    have := ih { spot with progress := spot.progress.after lexeme }
    rw [charsOf, List.flatMap_cons, afterAll_append]
    exact this

/-! ### Invocations -/

/-- The name of an action as the language has it: a name that is no word of its own. -/
def IsActionName (evaluates : Bool) (action : String) : Prop :=
  isName action = true ∧ wordToken evaluates action.toList = .ok (.name action)

/-- The name of an action that the language reads as something to be called. -/
def IsInvocable (evaluates : Bool) (action : String) : Prop :=
  isName action = true ∧ ∃ token, wordToken evaluates action.toList = .ok token ∧
    IsCallee action token

theorem IsActionName.isInvocable {action : String} (h : IsActionName evaluates action) :
    IsInvocable evaluates action :=
  ⟨h.1, _, h.2, .name⟩

theorem chars_invocationLine (action : String) :
    '\n' :: (invocation action).toList = charsOf (invocationLine action) ++ ['\n'] := by
  have hopen : "document = ".toList = "document".toList ++ [' ', '=', ' '] := rfl
  have hclose : "(document, input);\n".toList =
      '(' :: "document".toList ++ [',', ' '] ++ "input".toList ++ [')', ';', '\n'] := rfl
  rw [invocation, String.toList_append, String.toList_append, String.toList_append, hopen, hclose]
  simp only [invocationLine, charsOf, List.flatMap_cons, List.flatMap_nil, Lexeme.chars, newLine, named,
    space, List.append_assoc, List.cons_append, List.nil_append]

theorem fits_callLine {action : String} {token : Token} (hname : isName action = true)
    (htoken : wordToken evaluates action.toList = .ok token) :
    AllFit evaluates (some '\n') (callLine token action) := by
  have hword : Lexeme.isWord action.toList = true := hname
  exact ⟨rfl, ⟨rfl, rfl, rfl⟩, rfl, .inr ⟨rfl, rfl⟩, rfl, ⟨hword, htoken, rfl⟩, .inl (by decide),
    ⟨rfl, rfl, rfl⟩, .inl (by decide), rfl, ⟨rfl, rfl, rfl⟩, .inl (by decide), .inl (by decide),
    trivial⟩

/-- What is remembered after an invocation does not depend on how its action is read. -/
theorem Script.Spot.past_callLine (spot : Spot) (token : Token) (action : String) :
    spot.past (callLine token action) = spot.past (invocationLine action) := rfl

theorem reads_invocation {action : String} (h : IsInvocable evaluates action)
    (hspot : spot.progress.braces = [])
    (hdocument : spot.reading.locals.lookup "document" ≠ some true) :
    Reads evaluates spot (invocation action)
      [(Invocation.ofLine spot.progress.position action).stmt]
      { spot.past (invocationLine action) with
        reading := (Invocation.ofLine spot.progress.position action).noted spot.reading } := by
  obtain ⟨hname, token, htoken, hcallee⟩ := h
  rw [← spot.past_callLine token action]
  refine ⟨charsOf (callLine token action), tokensOf spot.progress.position (callLine token action),
    chars_invocationLine action, fun rest => cuts_lexemes (fits_callLine hname htoken) hspot, ?_, ?_⟩
  · exact (spot.braces_past _).trans hspot
  · refine (passage_invocation _ hcallee hdocument).of_le ?_
    rw [tokensOf_callLine]
    exact Nat.le_of_ble_eq_true rfl

theorem reads_invocations {actions : List String} {found : List Invocation}
    (hnames : ∀ action ∈ actions, IsInvocable evaluates action)
    (hspot : spot.progress.braces = [])
    (h : spot.invocations actions = some (found, next)) :
    Reads evaluates spot (String.join (actions.map invocation)) (found.map Invocation.stmt) next := by
  induction actions generalizing spot found with
  | nil =>
    cases h
    exact .empty evaluates hspot
  | cons action rest ih =>
    rw [Spot.invocations] at h
    split at h
    · cases h
    · rename_i hdocument
      obtain ⟨⟨others, last⟩, hothers, h⟩ := Option.bind_eq_some_iff.1 h
      cases h
      rw [List.map_cons, String.join_cons]
      refine (reads_invocation (hnames _ (.head _)) hspot hdocument).append
        (ih (fun a ha => hnames a (.tail _ ha)) ?_ hothers)
      exact (spot.braces_past _).trans hspot

/-! ### Rules -/

theorem not_mem_label (rule : Rule) (index : Nat) : '\n' ∉ (rule.label index).toList := by
  have hplace : '\n' ∉ ("rule[" ++ toString index ++ "]").toList := by
    have hdigits : '\n' ∉ Nat.toDigits 10 index := by
      intro h
      exact absurd (Nat.isDigit_of_mem_toDigits (by decide) (by decide) h) (by decide)
    simp [String.toList_append, hdigits]
  unfold Rule.label
  dsimp only
  split
  · rename_i name _
    have hname : '\n' ∉ (name.map fun c => if c = '\n' ∨ c = '\r' then ' ' else c).toList := by
      rw [String.toList_map, List.mem_map]
      rintro ⟨c, -, hc⟩
      split at hc
      · cases hc
      · rename_i hne
        exact hne (.inl hc)
    rw [String.toList_append, String.toList_append, List.mem_append, List.mem_append]
    rintro ((h | h) | h)
    · exact hplace h
    · exact absurd h (by decide)
    · exact hname h
  · exact hplace

theorem fits_titleLine {title : String} (h : '\n' ∉ title.toList) :
    AllFit evaluates (some '\n') (titleLine title) :=
  ⟨rfl, ⟨by simpa using h, rfl⟩, trivial⟩

theorem fits_ruleHead {label : String} (h : '\n' ∉ label.toList) (next : Option Char) :
    AllFit evaluates next (ruleHead label) :=
  ⟨rfl, ⟨by simpa using h, rfl⟩, rfl, ⟨rfl, rfl, rfl⟩, rfl, ⟨rfl, rfl, rfl⟩, .inl (by decide),
    trivial⟩

theorem fits_bodyHead (next : Option Char) : AllFit evaluates next bodyHead :=
  ⟨.inl (by decide), rfl, .inl (by decide), trivial⟩

theorem fits_ruleFoot (next : Option Char) : AllFit evaluates next ruleFoot :=
  ⟨rfl, .inl (by decide), trivial⟩

theorem eq_of_expression {text : String} {found : Expr}
    (h : spot.expression evaluates text = some (found, next)) : ∃ tokens,
      cut evaluates (text.toList.length + 2) spot.progress (text.toList ++ [')']) =
        some (tokens, next.progress) ∧ next.progress.braces = [] ∧
      Gives (readExpr (2 * tokens.length + 4))
        (spot.reading.withTokens (tokens ++ [(.sign ")", next.progress.position)])) found
        next.reading ∧
      next.reading.tokens.length = 1 := by
  unfold Spot.expression at h
  obtain ⟨⟨tokens, progress⟩, hcut, h⟩ := Option.bind_eq_some_iff.1 h
  dsimp only at h
  split at h
  · rename_i hbraces hrun
    split at h
    · rename_i hlength
      cases h
      exact ⟨tokens, hcut, hbraces, hrun, hlength⟩
    · cases h
  · cases h

theorem chars_ruleText (index : Nat) (rule : Rule) : '\n' :: (ruleText index rule).toList =
    charsOf (ruleHead (rule.label index)) ++ (conditionText rule.condition).toList ++
      charsOf bodyHead ++ '\n' ::
        (statementsText 2 rule.body ++ String.join (rule.actions.map invocation)).toList ++
      (indentation 1).toList ++ ['\x7d', '\n'] := by
  have hslashes : "// ".toList = ['/', '/', ' '] := rfl
  have hline : "\n".toList = ['\n'] := rfl
  have hif : "if truthy(".toList = "if".toList ++ ' ' :: "truthy".toList ++ ['('] := rfl
  have hbrace : ") \x7b\n".toList = [')', ' ', '\x7b', '\n'] := rfl
  have hclose : "\x7d\n".toList = ['\x7d', '\n'] := rfl
  unfold ruleText
  simp only [String.toList_append, hslashes, hline, hif, hbrace, hclose]
  simp only [ruleHead, titleLine, bodyHead, charsOf, List.flatMap_cons, List.flatMap_nil, Lexeme.chars,
    newLine, named, keyword, space, List.append_assoc, List.cons_append, List.nil_append]

theorem tokensOf_ruleHead (start : Position) (label : String) :
    tokensOf start (ruleHead label) =
      [(.word "if", placeOf start (ruleHead label) 0),
        (.name "truthy", placeOf start (ruleHead label) 1),
        (.sign "(", placeOf start (ruleHead label) 2)] := by
  rw [tokensOf_eq]
  rfl

theorem reads_rule {index : Nat} {rule : Rule} {found : RuleOutline}
    (hnames : ∀ action ∈ rule.actions, IsInvocable evaluates action)
    (hspot : spot.progress.braces = [])
    (h : rule.outline evaluates spot index = some (found, next)) :
    Reads evaluates spot (ruleText index rule) [found.branch] next := by
  unfold Rule.outline at h
  obtain ⟨⟨condition, opened⟩, hcondition, h⟩ := Option.bind_eq_some_iff.1 h
  obtain ⟨⟨body, middle⟩, hbody, h⟩ := Option.bind_eq_some_iff.1 h
  obtain ⟨⟨calls, last⟩, hcalls, h⟩ := Option.bind_eq_some_iff.1 h
  cases h
  obtain ⟨tokens, hcut, hopened, hgives, hlength⟩ := eq_of_expression hcondition
  have hmiddle := reads_allStatements ((opened.braces_past _).trans hopened) hbody
  have hbraces : middle.progress.braces = [] := hmiddle.choose_spec.choose_spec.2.2.1
  obtain ⟨chars, bodyTokens, htext, hcuts, hlast, hpassage⟩ :=
    hmiddle.append (reads_invocations hnames hbraces hcalls)
  refine ⟨charsOf (ruleHead (rule.label index)) ++ (conditionText rule.condition).toList ++
    charsOf bodyHead ++ chars ++ charsOf ruleFoot,
    tokensOf spot.progress.position (ruleHead (rule.label index)) ++ tokens ++
      tokensOf opened.progress.position bodyHead ++ bodyTokens ++
      tokensOf last.progress.position ruleFoot, ?_, fun rest => ?_, ?_, ?_⟩
  · rw [chars_ruleText]
    simp only [List.append_assoc]
    rw [← List.append_assoc ('\n' :: _), htext]
    simp [ruleFoot, charsOf, Lexeme.chars, newLine]
  · simp only [List.append_assoc]
    -- the head, the opening and the foot of the rule are lexemes, cut in their places
    have hhead (later : List Char) : Cuts evaluates spot.progress
        (charsOf (ruleHead (rule.label index)) ++ later) _ _ later :=
      cuts_lexemes (fits_ruleHead (not_mem_label rule index) _) hspot
    have hbody (later : List Char) : Cuts evaluates opened.progress
        (charsOf bodyHead ++ later) _ _ later := cuts_lexemes (fits_bodyHead _) hopened
    have hfoot (later : List Char) : Cuts evaluates last.progress
        (charsOf ruleFoot ++ later) _ _ later := cuts_lexemes (fits_ruleFoot _) hlast
    exact (hhead _).append ((cuts_of_cut rfl hcut _).append
      ((hbody _).append ((hcuts _).append (hfoot _))))
  · exact (last.braces_past _).trans hlast
  · rw [tokensOf_ruleHead]
    have hdepth : 2 * tokens.length + 4 ≤ 2 * (tokens.length + bodyTokens.length) + 4 := by omega
    have hbody : Passage (2 * (tokens.length + bodyTokens.length) + 4) opened.reading bodyTokens
        (body ++ calls.map Invocation.stmt) last.reading := hpassage.of_le (by omega)
    refine (passage_branch hdepth hgives hlength hbody).of_le ?_
    simp only [List.length_append, List.length_cons, List.length_nil]
    omega

theorem reads_rules {index : Nat} {rules : List Rule} {found : List RuleOutline}
    (hnames : ∀ rule ∈ rules, ∀ action ∈ rule.actions, IsInvocable evaluates action)
    (hspot : spot.progress.braces = [])
    (h : Rule.outlines evaluates spot index rules = some (found, next)) :
    Reads evaluates spot (rulesText index rules) (found.map RuleOutline.branch) next := by
  induction rules generalizing spot index found with
  | nil =>
    cases h
    exact .empty evaluates hspot
  | cons rule rest ih =>
    rw [Rule.outlines] at h
    obtain ⟨⟨first, middle⟩, hfirst, h⟩ := Option.bind_eq_some_iff.1 h
    obtain ⟨⟨others, last⟩, hothers, h⟩ := Option.bind_eq_some_iff.1 h
    cases h
    have hrule := reads_rule (hnames _ (.head _)) hspot hfirst
    exact hrule.append (ih (fun rule hrule => hnames rule (.tail _ hrule))
      hrule.choose_spec.choose_spec.2.2.1 hothers)

/-! ### Groups of statements -/

theorem reads_titleLine {title : String} (h : '\n' ∉ title.toList)
    (hspot : spot.progress.braces = []) :
    Reads evaluates spot (indentation 1 ++ "// " ++ title ++ "\n") []
      (spot.past (titleLine title)) := by
  refine ⟨charsOf (titleLine title), [], ?_, fun rest => ?_, ?_, passage_nil _ _⟩
  · have hslashes : "// ".toList = ['/', '/', ' '] := rfl
    have hline : "\n".toList = ['\n'] := rfl
    simp only [String.toList_append, hslashes, hline]
    simp [titleLine, charsOf, Lexeme.chars, newLine]
  · exact cuts_lexemes (fits_titleLine h) hspot
  · exact (spot.braces_past _).trans hspot

theorem reads_group {title : String} {statements : List String} {found : List Stmt}
    (htitle : '\n' ∉ title.toList) (hspot : spot.progress.braces = [])
    (h : spot.group evaluates title statements = some (found, next)) :
    Reads evaluates spot (groupText title statements) found next := by
  unfold Spot.group at h
  unfold groupText
  split at h
  · rename_i hempty
    cases h
    rw [if_pos hempty]
    exact .empty evaluates hspot
  · rename_i hempty
    rw [if_neg hempty]
    exact (reads_titleLine htitle hspot).append
      (reads_allStatements ((spot.braces_past _).trans hspot) h)

/-! ### Scripts -/

theorem exists_reads_inner {configuration : Configuration} {document : String} {o : Outline}
    (hnames : ∀ rule ∈ configuration.rules, ∀ action ∈ rule.actions, IsInvocable evaluates action)
    (h : configuration.outline evaluates document = some o) : ∃ last,
      o.answer = last.progress.position ∧ o.functions = last.reading.functions ∧
      Reads evaluates (Spot.initial document)
        (groupText "pre-execution" configuration.before ++ rulesText 0 configuration.rules ++
          groupText "post-execution" configuration.after) o.inner last := by
  unfold Configuration.outline at h
  obtain ⟨⟨before, first⟩, hbefore, h⟩ := Option.bind_eq_some_iff.1 h
  obtain ⟨⟨rules, second⟩, hrules, h⟩ := Option.bind_eq_some_iff.1 h
  obtain ⟨⟨after, last⟩, hafter, h⟩ := Option.bind_eq_some_iff.1 h
  cases h
  have hfirst := reads_group (by decide) (Spot.braces_past ⟨{}, _⟩ _) hbefore
  have hsecond := reads_rules hnames hfirst.choose_spec.choose_spec.2.2.1 hrules
  have hthird := reads_group (by decide) hsecond.choose_spec.choose_spec.2.2.1 hafter
  exact ⟨last, rfl, rfl, (hfirst.append hsecond).append hthird⟩

/-- The last line of a script closes the body of its function. -/
def Compilation.footLine : List Lexeme := [.gap ['\n'], .sign '\x7d']

theorem chars_opening (document : String) : (opening document).toList =
    charsOf headLine ++ charsOf (readingLines document) ++ ['\n'] := by
  have h₁ : "(input_json) \x7b\n".toList = '(' :: "input_json".toList ++ [')', ' ', '\x7b', '\n'] := rfl
  have h₂ : "let input = ();\n".toList =
    "let".toList ++ ' ' :: "input".toList ++ [' ', '=', ' ', '(', ')', ';', '\n'] := rfl
  have h₃ : "try \x7b input = json_parse(input_json); \x7d catch (err) ".toList =
    "try".toList ++ [' ', '\x7b', ' '] ++ "input".toList ++ [' ', '=', ' '] ++ "json_parse".toList ++
      ['('] ++ "input_json".toList ++ [')', ';', ' ', '\x7d', ' '] ++ "catch".toList ++ [' ', '('] ++
      "err".toList ++ [')', ' '] := rfl
  have h₄ : "\x7b return input_json; \x7d\n".toList =
    '\x7b' :: ' ' :: "return".toList ++ ' ' :: "input_json".toList ++ [';', ' ', '\x7d', '\n'] := rfl
  have h₅ : "let document = json_parse(".toList =
    "let".toList ++ ' ' :: "document".toList ++ [' ', '=', ' '] ++ "json_parse".toList ++ ['('] := rfl
  have h₆ : ");\n".toList = [')', ';', '\n'] := rfl
  have h₇ : "fn ".toList = "fn".toList ++ [' '] := rfl
  unfold opening
  simp only [String.toList_append, h₁, h₂, h₃, h₄, h₅, h₆, h₇, Compilation.toList_literal]
  simp only [headLine, readingLines, charsOf, List.flatMap_cons, List.flatMap_nil, Lexeme.chars, newLine,
    named, keyword, space, List.append_assoc, List.cons_append, List.nil_append]

theorem chars_closing :
    '\n' :: closing.toList = charsOf answerLine ++ charsOf footLine ++ ['\n'] := rfl

theorem fits_headLine (next : Option Char) : AllFit evaluates next headLine :=
  ⟨⟨rfl, rfl, rfl⟩, rfl, ⟨rfl, rfl, rfl⟩, .inl (by decide), ⟨rfl, rfl, rfl⟩, .inl (by decide), rfl,
    .inl (by decide), trivial⟩

theorem fits_readingLines (document : String) (next : Option Char) :
    AllFit evaluates next (readingLines document) := by
  have lonely {c : Char} (hc : c ∈ Lexeme.lonelySigns) (next : Option Char) :
      (Lexeme.sign c).Fits evaluates next := .inl hc
  have opens := lonely (c := '(') (by decide)
  have closes := lonely (c := ')') (by decide)
  have semicolon := lonely (c := ';') (by decide)
  have brace := lonely (c := '\x7b') (by decide)
  have unbrace := lonely (c := '\x7d') (by decide)
  have equals : (Lexeme.sign '=').Fits evaluates (some ' ') := .inr ⟨rfl, rfl⟩
  exact ⟨rfl, ⟨rfl, rfl, rfl⟩, rfl, ⟨rfl, rfl, rfl⟩, rfl, equals, rfl, opens _, closes _, semicolon _,
    rfl, ⟨rfl, rfl, rfl⟩, rfl, brace _, rfl, ⟨rfl, rfl, rfl⟩, rfl, equals, rfl, ⟨rfl, rfl, rfl⟩,
    opens _, ⟨rfl, rfl, rfl⟩, closes _, semicolon _, rfl, unbrace _, rfl, ⟨rfl, rfl, rfl⟩, rfl,
    opens _, ⟨rfl, rfl, rfl⟩, closes _, rfl, brace _, rfl, ⟨rfl, rfl, rfl⟩, rfl, ⟨rfl, rfl, rfl⟩,
    semicolon _, rfl, unbrace _,
    rfl, ⟨rfl, rfl, rfl⟩, rfl, ⟨rfl, rfl, rfl⟩, rfl, equals, rfl, ⟨rfl, rfl, rfl⟩, opens _,
    (fun h => by cases h), closes _, semicolon _, trivial⟩

theorem fits_answerLine : AllFit evaluates (some '\n') answerLine :=
  ⟨rfl, ⟨rfl, rfl, rfl⟩, rfl, ⟨rfl, rfl, rfl⟩, .inl (by decide), ⟨rfl, rfl, rfl⟩, .inl (by decide),
    .inl (by decide), trivial⟩

theorem fits_footLine (next : Option Char) : AllFit evaluates next footLine :=
  ⟨rfl, .inl (by decide), trivial⟩

/-- What follows the last token of a script. -/
theorem scan_newLine (fuel : Nat) (progress : Progress) :
    scan evaluates (fuel + 1) progress ['\n'] = .ok [] := by
  cases fuel <;> rfl

theorem chars_scriptText (configuration : Configuration) (document : String) :
    (scriptText configuration document).toList =
      charsOf headLine ++ (charsOf (readingLines document) ++ ('\n' ::
        (groupText "pre-execution" configuration.before ++ rulesText 0 configuration.rules ++
          groupText "post-execution" configuration.after).toList ++ closing.toList)) := by
  unfold scriptText
  simp only [String.toList_append, chars_opening, List.append_assoc, List.cons_append,
    List.nil_append]

/-- The first characters of the last lines. -/
theorem exists_answerLine : ∃ s, ∀ later, charsOf answerLine ++ later = '\n' :: (s ++ later) :=
  ⟨(charsOf answerLine).tail, fun _ => rfl⟩

/-- The first lines of a script are cut as what they are. -/
theorem cuts_firstLines (document : String) (later : List Char) :
    Cuts evaluates {} (charsOf headLine ++ (charsOf (readingLines document) ++ later))
      (tokensOf .start headLine ++
        tokensOf (Position.start.afterAll (charsOf headLine)) (readingLines document))
      (Spot.initial document).progress later := by
  let first : Spot := ⟨{}, (Spot.initial document).reading⟩
  have hhead (later : List Char) : Cuts evaluates {} (charsOf headLine ++ later)
      (tokensOf .start headLine) (first.past headLine).progress later :=
    cuts_lexemes (fits_headLine _) rfl
  have hinitial : (Spot.initial document).progress =
      (readingLines document).foldl Progress.after (first.past headLine).progress :=
    List.foldl_append
  have hposition : (first.past headLine).progress.position =
      Position.start.afterAll (charsOf headLine) := first.position_past headLine
  refine (hhead _).append ?_
  rw [hinitial, ← hposition]
  exact cuts_lexemes (fits_readingLines document _) (first.braces_past headLine)

/-- The tokens of a script: those of the first lines, those of its passages and those of the last
lines. -/
theorem tokens_scriptText {configuration : Configuration} {document : String} {last : Spot}
    {found : List Stmt}
    (h : Reads evaluates (Spot.initial document)
      (groupText "pre-execution" configuration.before ++ rulesText 0 configuration.rules ++
        groupText "post-execution" configuration.after) found last) : ∃ tokens start,
    Lexer.tokens evaluates (scriptText configuration document) =
      .ok (tokensOf .start headLine ++
        (tokensOf (Position.start.afterAll (charsOf headLine)) (readingLines document) ++ (tokens ++
          (tokensOf last.progress.position answerLine ++ tokensOf start footLine)))) ∧
    Passage (2 * tokens.length + 4) (Spot.initial document).reading tokens found last.reading := by
  obtain ⟨chars, tokens, htext, hcuts, hbraces, hpassage⟩ := h
  refine ⟨tokens, (last.past answerLine).progress.position, ?_, hpassage⟩
  have hfoot : Cuts evaluates (last.past answerLine).progress (charsOf footLine ++ ['\n'])
      (tokensOf (last.past answerLine).progress.position footLine) _ ['\n'] :=
    cuts_lexemes (fits_footLine _) ((last.braces_past answerLine).trans hbraces)
  -- the last lines follow the line break that ends the passages
  obtain ⟨s, hs⟩ := exists_answerLine
  have hanswer : Cuts evaluates last.progress ('\n' :: (s ++ (charsOf footLine ++ ['\n'])))
      (tokensOf last.progress.position answerLine) (last.past answerLine).progress
      (charsOf footLine ++ ['\n']) := by
    rw [← hs]
    exact cuts_lexemes fits_answerLine hbraces
  have hchars : (scriptText configuration document).toList =
      charsOf headLine ++ (charsOf (readingLines document) ++ (chars ++ ('\n' :: (s ++
        (charsOf footLine ++ ['\n']))))) := by
    rw [chars_scriptText, htext, List.append_assoc, List.singleton_append, chars_closing,
      List.append_assoc, hs]
  have hall := (cuts_firstLines document _).append ((hcuts _).append (hanswer.append hfoot))
  obtain ⟨fuel, hfuel, hscan⟩ := hall.scan (Nat.lt_succ_self _)
  obtain ⟨fuel, rfl⟩ : ∃ k, fuel = k + 1 := ⟨fuel - 1, by omega⟩
  rw [Lexer.tokens, hchars, hscan, scan_newLine, List.append_assoc]
  change Except.ok (_ ++ []) = _
  rw [List.append_nil]

/-! ### Programs -/

/-- What is known after the function of a script, given what is known after its body. -/
def Compilation.afterFunction (u : Reading) (body : List Stmt) : Reading :=
  { u with
    locals := [], unbound := [], inLoop := false, inFunction := false
    functions := u.functions ++ [⟨entryPoint, ["input_json"], body⟩] }

/-- The function of a script, after its first word. -/
theorem gives_function {stmt : Reader Stmt} {p : Nat → Position} {tokens : Tokens} {t : Reading} :
    Gives (Reader.function stmt)
      { tokens := [(.name entryPoint, p 1), (.sign "(", p 2), (.name "input_json", p 3),
          (.sign ")", p 4), (.sign "\x7b", p 5)] ++ tokens } () t ↔
      ∃ body u, Gives (blockRest stmt) (inFunctionBody.withTokens tokens) body u ∧
        t = afterFunction u body := by
  let parameters : Tokens := (.name "input_json", p 3) :: (.sign ")", p 4) ::
    (.sign "\x7b", p 5) :: tokens
  have hname : readName.run { tokens := (.name entryPoint, p 1) :: (.sign "(", p 2) :: parameters } =
      .ok (entryPoint, { tokens := (.sign "(", p 2) :: parameters }) := rfl
  have hopen : (expect "(").run { tokens := (.sign "(", p 2) :: parameters } =
      .ok ((), { tokens := parameters }) := rfl
  have hparameters : (items ")" readName).run { tokens := parameters } =
      .ok (["input_json"], { tokens := (.sign "\x7b", p 5) :: tokens }) := rfl
  have hblock (body : List Stmt) (u : Reading) : Gives (block stmt)
      (inFunctionBody.withTokens ((.sign "\x7b", p 5) :: tokens)) body u ↔
      Gives (blockRest stmt) (inFunctionBody.withTokens tokens) body u := by
    unfold block
    exact gives_bind_of_run rfl
  change Gives (Reader.function stmt)
    { tokens := (.name entryPoint, p 1) :: (.sign "(", p 2) :: parameters } _ _ ↔ _
  unfold Reader.function
  rw [gives_bind_of_run hname, gives_bind_of_run hopen, gives_bind_of_run hparameters,
    gives_bind_of_run (r := checkDistinct ["input_json"]) rfl, gives_bind_of_run (r := get) rfl]
  change Gives (inFunction ["input_json"] (block stmt) >>= _) _ _ _ ↔ _
  rw [gives_bind]
  constructor
  · rintro ⟨⟨body, unbound⟩, v, hbody, ht⟩
    obtain ⟨u, hu, -, rfl⟩ := gives_inFunction.1 hbody
    exact ⟨body, u, (hblock body u).1 hu, gives_modify.1 ht⟩
  · rintro ⟨body, u, hbody, rfl⟩
    exact ⟨(body, u.unbound), _, gives_inFunction.2 ⟨u, (hblock body u).2 hbody, rfl, rfl⟩,
      gives_modify.2 rfl⟩

/-- The tokens of the head of a script, at some places. -/
def Compilation.headTokens (p : Nat → Position) : Tokens :=
  [(.word "fn", p 0), (.name entryPoint, p 1), (.sign "(", p 2), (.name "input_json", p 3),
    (.sign ")", p 4), (.sign "\x7b", p 5)]

/-- A script that begins with its function. -/
theorem gives_program {stmt : Reader Stmt} {fuel : Nat} {p : Nat → Position} {tokens : Tokens}
    {statements : List Stmt} {t : Reading} :
    Gives (Reader.program stmt (fuel + 1)) { tokens := headTokens p ++ tokens } statements t ↔
      ∃ body u, Gives (blockRest stmt) (inFunctionBody.withTokens tokens) body u ∧
        Gives (Reader.program stmt fuel) (afterFunction u body) statements t := by
  -- the first word is taken
  change Gives (do Reader.function stmt; Reader.program stmt fuel) { tokens := _ ++ tokens } _ _ ↔ _
  rw [gives_bind]
  constructor
  · rintro ⟨⟨⟩, v, hfunction, h⟩
    obtain ⟨body, u, hbody, rfl⟩ := gives_function.1 hfunction
    exact ⟨body, u, hbody, h⟩
  · rintro ⟨body, u, hbody, h⟩
    exact ⟨(), _, gives_function.2 ⟨body, u, hbody, rfl⟩, h⟩

/-- A script that is over. -/
theorem gives_program_nil {stmt : Reader Stmt} {fuel : Nat} {s : Reading} (hs : s.tokens = []) :
    Gives (Reader.program stmt (fuel + 1)) s [] s := by
  unfold Reader.program
  rw [gives_bind_of_run (r := peek) rfl, hs]
  exact gives_pure.2 ⟨rfl, rfl⟩

theorem read_of_gives {script : String} {tokens : Tokens} {statements : List Stmt} {t : Reading}
    (htokens : Lexer.tokens evaluates script = .ok tokens)
    (h : Gives (Reader.program (readStmt (2 * tokens.length + 4)) (2 * tokens.length + 4)) { tokens }
      statements t) : Program.read evaluates script = .ok ⟨t.functions, statements⟩ := by
  unfold Program.read
  rw [htokens]
  change Except.bind (StateT.run _ ({ tokens } : Reading)) _ = _
  rw [h]
  rfl

theorem exists_gives_of_read {script : String} {tokens : Tokens} {program : Program}
    (htokens : Lexer.tokens evaluates script = .ok tokens)
    (h : Program.read evaluates script = .ok program) : ∃ statements t,
      Gives (Reader.program (readStmt (2 * tokens.length + 4)) (2 * tokens.length + 4)) { tokens }
        statements t := by
  unfold Program.read at h
  rw [htokens] at h
  change Except.bind (StateT.run _ ({ tokens } : Reading)) _ = _ at h
  unfold Gives
  cases hrun : (Reader.program (readStmt (2 * tokens.length + 4)) (2 * tokens.length + 4)).run
      { tokens } with
  | error err =>
    rw [hrun] at h
    cases h
  | ok result => exact ⟨_, _, rfl⟩

/-- The script of a configuration has one function besides anonymous ones, and its body is that of the
outline. -/
theorem read_scriptText_of_invocable {configuration : Configuration} {document : String} {o : Outline}
    (hnames : ∀ rule ∈ configuration.rules, ∀ action ∈ rule.actions, IsInvocable evaluates action)
    (h : configuration.outline evaluates document = some o) :
    Program.read evaluates (scriptText configuration document) = .ok (o.program document) ∧
      ∀ f ∈ o.functions, f.IsAnonymous := by
  obtain ⟨last, hplace, hfunctions, hreads⟩ := exists_reads_inner hnames h
  obtain ⟨tokens, start, htokens, hpassage⟩ := tokens_scriptText hreads
  let place := placeOf .start headLine
  have hhead : tokensOf .start headLine = headTokens place := tokensOf_eq _ _
  have hfoot : tokensOf start footLine = [mark (placeOf start footLine 0)] := tokensOf_eq _ _
  rw [hhead, hfoot, ← List.append_assoc tokens, ← List.append_assoc (tokensOf _ _)] at htokens
  -- the body: the first lines, what comes from the configuration, and the answer
  have hbody := ((passage_readingLines (Position.start.afterAll (charsOf headLine)) document).of_le
    (by omega : 8 ≤ 2 * tokens.length + 8)).append ((hpassage.of_le (by omega)).append
      ((passage_answerLine last.progress.position last.reading).of_le (by omega)))
  rw [← hplace, ← List.append_assoc (readingStmts _ document)] at hbody
  change Passage _ _ _ (o.body document) _ at hbody
  rw [hplace] at hbody
  generalize htokens' : tokensOf (Position.start.afterAll (charsOf headLine)) (readingLines document) ++
    (tokens ++ tokensOf last.progress.position answerLine) = inner at htokens hbody
  have hkept (place : Position) : (last.reading.noting "document" place).functions = o.functions :=
    hfunctions.symm
  generalize hv : last.reading.noting "document" _ = v at hbody
  have hv' : v.functions = o.functions := hv ▸ hkept _
  have hlength : tokens.length ≤ inner.length := by
    rw [← htokens']
    simp only [List.length_append]
    omega
  have hblock : Gives (blockRest (readStmt (2 * inner.length + 18)))
      (inFunctionBody.withTokens (inner ++ [mark (placeOf start footLine 0)])) _ _ :=
    gives_blockRest hbody (by omega)
  have hprogram : Gives
      (Reader.program (readStmt (2 * inner.length + 18)) (2 * inner.length + 18)) _ [] _ :=
    (@gives_program _ _ place _ _ _).2 ⟨_, _, hblock, gives_program_nil rfl⟩
  refine ⟨?_, fun f hf =>
    (hbody.functions f (hv' ▸ hf)).resolve_left (by simp [inFunctionBody])⟩
  -- the reader allows for a depth that covers all tokens of the script
  have hfuel : 2 * inner.length + 18 =
      2 * (headTokens place ++ (inner ++ [mark (placeOf start footLine 0)])).length + 4 := by
    simp only [headTokens, List.length_append, List.length_cons, List.length_nil]
    omega
  rw [hfuel] at hprogram
  rw [read_of_gives htokens hprogram, Outline.program, hv']
  rfl

theorem read_scriptText {configuration : Configuration} {document : String} {o : Outline}
    (hnames : ∀ rule ∈ configuration.rules, ∀ action ∈ rule.actions, IsActionName evaluates action)
    (h : configuration.outline evaluates document = some o) :
    Program.read evaluates (scriptText configuration document) = .ok (o.program document) ∧
      ∀ f ∈ o.functions, f.IsAnonymous :=
  read_scriptText_of_invocable
    (fun rule hrule action haction => (hnames rule hrule action haction).isInvocable) h

end Rulebook
