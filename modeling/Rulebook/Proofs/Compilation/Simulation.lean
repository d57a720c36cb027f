import Rulebook.Proofs.Compilation.Meaning
import Rulebook.Proofs.Compilation.Parsing

/-!
# A compiled script runs like its configuration

What the language leaves of the function of a script, statement by statement: the first lines bring the
input and the document into scope, each rule comes to what its outline says, and the last line answers
with the text of the document. `call_script` puts this together for the script of an outline,
`call_of_compileWithDocument` for the script that a configuration compiles to.
-/

namespace Rulebook

open Script Script.Eval Compilation

/-! ### What is left of a script -/

theorem kept_readingStmts (start : Position) (document : String) :
    Stmt.kept (readingStmts start document) = readingStmts start document := rfl

theorem simplifyBody_body (o : Outline) (document : String) :
    Program.simplifyBody (o.body document) =
      readingStmts (Position.start.afterAll (charsOf headLine)) document ++ Stmt.kept o.inner ++
        [answerStmt o.answer] := by
  have hanswer : Stmt.flatten (Stmt.simplifyAll true [answerStmt o.answer]) =
    [answerStmt o.answer] := rfl
  rw [Program.simplifyBody, Stmt.tidy, Outline.body, Stmt.simplifyAll_append, Stmt.flatten_append,
    hanswer, Stmt.trim_concat false _ rfl]
  change Stmt.kept _ ++ _ = _
  rw [Stmt.kept_append, kept_readingStmts]

/-! ### Rules -/

section

variable {setting : Setting} {n : Nat}

theorem inOrder_invocations (invocations : List Invocation) :
    inOrder (stmt setting (run setting (n + 2))) (invocations.map Invocation.stmt) =
      inOrder (Invocation.run (Invocation.called setting n)) invocations := by
  induction invocations with
  | nil => rfl
  | cons i rest ih =>
    rw [List.map_cons, inOrder, inOrder, ih, Invocation.stmt, stmt_assign, Invocation.run,
      Invocation.called]
    simp only [bind_assoc, pure_bind]

/-- The statements in the block of a rule. -/
theorem tidy_rule (rule : RuleOutline) :
    Stmt.tidy true true (Stmt.simplifyAll true (rule.body ++ rule.invocations.map Invocation.stmt)) =
      rule.statements ++ rule.invocations.map Invocation.stmt := by
  have hkept (invocations : List Invocation) :
      Stmt.kept (invocations.map Invocation.stmt) = invocations.map Invocation.stmt :=
    (Stmt.kept_map Invocation.stmt invocations).trans List.map_eq_flatMap.symm
  unfold RuleOutline.statements
  rcases rule.invocations.eq_nil_or_concat with h | ⟨rest, last, h⟩
  · rw [h, List.isEmpty_nil, if_pos rfl, List.map_nil, List.append_nil, List.append_nil]
  · have hlast : Stmt.flatten (Stmt.simplifyAll true [last.stmt]) = [last.stmt] := rfl
    rw [List.concat_eq_append] at h
    rw [h, if_neg (by simp), List.map_append, ← List.append_assoc, List.map_singleton, Stmt.tidy,
      Stmt.simplifyAll_append, Stmt.flatten_append, hlast, Stmt.trim_concat true _ rfl]
    change Stmt.kept _ ++ _ = _
    rw [Stmt.kept_append, hkept, List.append_assoc]

theorem inOrder_rule (h : setting.function? "truthy" 1 = none) (rule : RuleOutline) :
    inOrder (stmt setting (run setting (n + 3))) (Stmt.kept [rule.branch]) =
      rule.run setting n (Invocation.called setting n) := by
  rw [RuleOutline.branch, inOrder_branch h, tidy_rule, RuleOutline.run, ← inOrder_invocations,
    ← inOrder_append, ← body_unwanted]
  rfl

theorem inOrder_inner (h : setting.function? "truthy" 1 = none) (o : Outline) :
    inOrder (stmt setting (run setting (n + 3))) (Stmt.kept o.inner) = (do
      inOrder (stmt setting (run setting (n + 3))) (Stmt.kept o.before)
      inOrder (RuleOutline.run setting n (Invocation.called setting n)) o.rules
      inOrder (stmt setting (run setting (n + 3))) (Stmt.kept o.after)) := by
  rw [Outline.inner, Stmt.kept_append, Stmt.kept_append, Stmt.kept_map, inOrder_append,
    inOrder_append, inOrder_flatMap, bind_assoc]
  simp only [inOrder_rule h]

/-! ### The first lines -/

/-- The variables that the line sees which reads the input. -/
def readingScope (value : Datum) (input : String) (outer : List Variable) : List Variable :=
  ⟨"input", value, false⟩ :: ⟨"input_json", .text input, false⟩ :: outer

/-- The assignment that reads the input. -/
def readingStmt (p : Nat → Position) : Stmt :=
  .assign (.name "input" (p 8)) none (.call "json_parse" [.name "input_json" (p 12)] (p 10)) (p 9)

theorem run_readingStmt (h : setting.function? "json_parse" 1 = none) (p : Nat → Position) (s : State)
    (input : String) (outer : List Variable) :
    run setting (n + 3) (.body [readingStmt p])
        { s with scope := readingScope .unit input outer } =
      (do
        setVariable "input" (← parse input (p 10)) (p 8)
        return Datum.unit) { s with scope := readingScope .unit input outer } := by
  have hread (k : Datum → Eval Datum) : (run setting (n + 1) (.expr (.name "input_json" (p 12))) >>= k)
      { s with scope := readingScope .unit input outer } =
      k (.text input) { s with scope := readingScope .unit input outer } := rfl
  rw [run_statement, readingStmt, stmt_assign, run_parse h, bind_assoc, hread]

/-- The line that reads the input. -/
theorem stmt_attemptInput (h : setting.function? "json_parse" 1 = none) (p : Nat → Position)
    (s : State) (input : String) (outer : List Variable) :
    stmt setting (run setting (n + 3))
        (.attempt [readingStmt p] (some "err") [.answer (some (.name "input_json" (p 22)))])
        { s with scope := readingScope .unit input outer } =
      match Datum.readJson? input with
      | some value => (.ok .unit, { s with scope := readingScope value input outer })
      | none => (.error (.answered (.text input)), { s with scope := readingScope .unit input outer }) := by
  have hbody := run_readingStmt (n := n) h p s input outer
  cases hinput : Datum.readJson? input with
  | some value =>
    rw [parse_of_some hinput] at hbody
    exact attempt_of_ok (block_of_scope (t := { s with scope := readingScope value input outer }) []
      hbody rfl rfl)
  | none =>
    rw [parse_of_none hinput] at hbody
    let t : State := { s with scope := readingScope .unit input outer }
    let message : Datum := .text "Invalid JSON: the text does not follow the grammar"
    have hraised : block (run setting (n + 3) (.body [readingStmt p])) t =
        (.error (.error { problem := .thrown message, position := p 10 }), t) :=
      block_of_scope (t := t) [] hbody rfl rfl
    refine attempt_of_error hraised rfl ?_
    exact block_of_scope (t := { t with scope := ⟨"err", message, false⟩ :: t.scope })
      [⟨"err", message, false⟩] rfl rfl rfl

/-- The first lines bring the input and the document into scope, or answer with the text of an input
that is not JSON. -/
theorem inOrder_readingStmts (h : setting.function? "json_parse" 1 = none) (start : Position)
    (document : String) (s : State) (input : String) (outer : List Variable) :
    inOrder (stmt setting (run setting (n + 3))) (readingStmts start document)
        { s with scope := ⟨"input_json", .text input, false⟩ :: outer } =
      match Datum.readJson? input with
      | some value => (do
        declare "document" (← parse document (placeOf start (readingLines document) 28)) false)
          { s with scope := readingScope value input outer }
      | none => (.error (.answered (.text input)), { s with scope := readingScope .unit input outer }) := by
  let p := placeOf start (readingLines document)
  have hattempt := stmt_attemptInput (n := n) h p s input outer
  have hdocument : stmt setting (run setting (n + 3)) (.declare "document"
      (some (.call "json_parse" [.constant (.text document) (p 30)] (p 28))) false (p 26)) = (do
        declare "document" (← parse document (p 28)) false
        return Datum.unit) := by
    change (do
      declare "document" (← run setting (n + 3) (.expr (.call "json_parse" _ _))) false
      return Datum.unit) = _
    rw [run_parse h]
    rfl
  -- the first statement brings the input into scope
  change (do
    let _ ← stmt setting (run setting (n + 3))
      (.attempt [readingStmt p] (some "err") [.answer (some (.name "input_json" (p 22)))])
    let _ ← stmt setting (run setting (n + 3)) (.declare "document" _ false (p 26))
    return ()) { s with scope := readingScope .unit input outer } = _
  rw [hdocument]
  cases hinput : Datum.readJson? input with
  | some value =>
    rw [hinput] at hattempt
    rw [bind_of_ok hattempt]
    simp only [bind_assoc, pure_bind, p]
    exact congrFun (bind_congr fun _ => bind_pure _) _
  | none =>
    rw [hinput] at hattempt
    exact bind_of_error hattempt _

/-! ### The function of a script -/

theorem stmt_answerStmt (h : setting.function? "json_stringify" 1 = none) (start : Position) :
    stmt setting (run setting (n + 3)) (answerStmt start) = (do
      let value ← lookUp "document" (placeOf start answerLine 3)
      signal (.answered (.text value.toJson.compact))) := by
  change (do signal (.answered (← run setting (n + 3) (.expr (.call "json_stringify" _ _))))) = _
  rw [run_stringify h, run_name]
  simp only [bind_assoc, pure_bind]

/-- The functions that every script relies on are not hidden by functions of the script. -/
structure Script.Setting.Plain (setting : Setting) : Prop where
  parse : setting.function? "json_parse" 1 = none
  stringify : setting.function? "json_stringify" 1 = none
  truthy : setting.function? "truthy" 1 = none

/-- The body of the function of a script does what its outline says, and answers with the text of the
document. -/
theorem settle_body (h : setting.Plain) (o : Outline) (document input : String) (s : State)
    (outer : List Variable) : ∃ scope,
      settle (run setting (n + 4) (.body (Program.simplifyBody (o.body document))))
          { s with scope := ⟨"input_json", .text input, false⟩ :: outer } =
        let ended := settle (o.run setting n (Invocation.called setting n) document input)
          { s with scope := ⟨"input_json", .text input, false⟩ :: outer }
        (ended.1, { ended.2 with scope }) := by
  let start := Position.start.afterAll (charsOf headLine)
  let work : Eval Datum := do
    inOrder (stmt setting (run setting (n + 3))) (Stmt.kept o.before)
    inOrder (RuleOutline.run setting n (Invocation.called setting n)) o.rules
    inOrder (stmt setting (run setting (n + 3))) (Stmt.kept o.after)
    return .text (← lookUp "document" (placeOf o.answer answerLine 3)).toJson.compact
  have hbody : run setting (n + 4) (.body (Program.simplifyBody (o.body document))) = (do
      inOrder (stmt setting (run setting (n + 3))) (readingStmts start document)
      signal (.answered (← work))) := by
    rw [simplifyBody_body]
    change body setting (run setting (n + 3)) _ = _
    rw [body_concat, inOrder_append, inOrder_inner h.truthy, stmt_answerStmt h.stringify]
    simp only [work, bind_assoc, pure_bind, start]
  have hreading := inOrder_readingStmts (n := n) h.parse start document s input outer
  rw [hbody, Outline.run]
  cases hinput : Datum.readJson? input with
  | none =>
    rw [hinput] at hreading
    refine ⟨readingScope .unit input outer, ?_⟩
    rw [settle_of_answered (bind_of_error hreading _)]
    rfl
  | some value =>
    rw [hinput] at hreading
    let reading : Eval Unit := do
      declare "document" (← parse document (placeOf start (readingLines document) 28)) false
    refine ⟨(settle (reading >>= fun _ => work)
      { s with scope := readingScope value input outer }).2.scope, ?_⟩
    have hreading : inOrder (stmt setting (run setting (n + 3))) (readingStmts start document)
        { s with scope := ⟨"input_json", .text input, false⟩ :: outer } =
        reading { s with scope := readingScope value input outer } := hreading
    rw [settle_of_eq (bind_of_eq hreading _), ← bind_assoc, settle_answer]
    simp only [reading, bind_assoc]
    rfl

end

/-! ### Scripts -/

/-- A script without statements of its own calls its function at once. -/
theorem Script.evaluation_of_function {setting : Setting} {program : Program} {f : Function}
    {name input : String} (hstatements : program.statements = [])
    (hfunction : setting.function? name 1 = some f) :
    evaluation setting program name input =
      valueOf (callFunction (Eval.run setting depth) f [.text input] none none) := by
  obtain ⟨n, hn⟩ : ∃ n, depth = n + 1 := ⟨depth - 1, by decide⟩
  have htop : outcome (block (Eval.run setting depth (.body []))) = return .ok Datum.unit := by
    rw [hn]
    change outcome (block (return Datum.unit)) = _
    rw [block_pure]
    rfl
  unfold evaluation
  rw [hstatements]
  dsimp only
  rw [htop, hfunction, pure_bind]

namespace Outline

variable {o : Outline} {document : String} {sandbox : Sandbox} {host : Host}

/-- The script of an outline, as it runs in a sandbox. -/
def script (o : Outline) (document text : String) (sandbox : Sandbox) : Script :=
  ⟨text, (o.program document).simplify, sandbox⟩

/-- The only function of a script with a proper name is the one that it is called by. -/
theorem function?_eq_none (hfunctions : ∀ f ∈ o.functions, f.IsAnonymous)
    {text name : String} {arity : Nat} (hname : '$' ∉ name.toList)
    (hentry : name ≠ entryPoint ∨ arity ≠ 1) :
    ((o.script document text sandbox).setting host).function? name arity = none := by
  refine List.find?_eq_none.2 fun f hf => ?_
  obtain ⟨g, hg, rfl⟩ := List.mem_map.1 hf
  simp only [Bool.and_eq_true, beq_iff_eq, not_and]
  rcases List.mem_append.1 hg with hg | hg
  · intro heq
    exact absurd heq ((hfunctions g hg).name_ne hname)
  · rw [List.mem_singleton.1 hg]
    rintro rfl rfl
    exact hentry.elim (absurd rfl) (absurd rfl)

theorem function?_entryPoint
    (hfunctions : ∀ f ∈ o.functions, f.IsAnonymous)
    (document text : String) (sandbox : Sandbox) (host : Host) :
    ((o.script document text sandbox).setting host).function? entryPoint 1 =
      some ⟨entryPoint, ["input_json"], Program.simplifyBody (o.body document)⟩ := by
  change List.find? _ (List.map _ (o.functions ++ [_])) = _
  rw [List.map_append, List.find?_append, List.find?_eq_none.2 ?_]
  · rfl
  · intro f hf
    obtain ⟨g, hg, rfl⟩ := List.mem_map.1 hf
    simp only [Bool.and_eq_true, beq_iff_eq, not_and]
    intro hname
    exact absurd hname ((hfunctions g hg).name_ne (by decide))

theorem plain_setting (hfunctions : ∀ f ∈ o.functions, f.IsAnonymous)
    (document text : String) (sandbox : Sandbox) (host : Host) :
    ((o.script document text sandbox).setting host).Plain where
  parse := function?_eq_none hfunctions (by decide) (.inl (by decide))
  stringify := function?_eq_none hfunctions (by decide) (.inl (by decide))
  truthy := function?_eq_none hfunctions (by decide) (.inl (by decide))

/-- The script of an outline runs as the outline says. -/
theorem call_script (hfunctions : ∀ f ∈ o.functions, f.IsAnonymous)
    (text input : String) :
    (o.script document text sandbox).call entryPoint input host =
      let setting := (o.script document text sandbox).setting host
      o.result setting (depth - 4) (Invocation.called setting (depth - 4)) document input := by
  have hentry := function?_entryPoint hfunctions document text sandbox host
  have hplain := plain_setting hfunctions document text sandbox host
  obtain ⟨n, hn⟩ : ∃ n, depth = n + 4 := ⟨depth - 4, by decide⟩
  have hlevel : depth - 4 = n := by omega
  have hcall (setting : Setting) (hplain : setting.Plain) :
      callFunction (Eval.run setting depth)
          ⟨entryPoint, ["input_json"], Program.simplifyBody (o.body document)⟩ [.text input] none none =
        callFunction (fun _ => o.run setting n (Invocation.called setting n) document input)
          ⟨entryPoint, ["input_json"], []⟩ [.text input] none none :=
    callFunction_congr rfl fun s => hn ▸ settle_body hplain o document input
      { s with subject := none, calls := s.calls + 1 } []
  unfold Script.call
  rw [Script.evaluation_of_function rfl hentry, hcall _ hplain, hlevel]
  rfl

/-- A run does not depend on what other invocations come to. -/
theorem result_congr {setting : Setting} {n : Nat} {invoke invoke' : Invocation → Eval Datum}
    (h : ∀ rule ∈ o.rules, ∀ i ∈ rule.invocations, invoke i = invoke' i) (input : String) :
    o.result setting n invoke document input = o.result setting n invoke' document input := by
  have hinvocations (rule : RuleOutline) (hrule : rule ∈ o.rules) :
      inOrder (Invocation.run invoke) rule.invocations =
        inOrder (Invocation.run invoke') rule.invocations :=
    inOrder_congr fun i hi => by
      unfold Invocation.run
      rw [h rule hrule i hi]
  have hrules : inOrder (RuleOutline.run setting n invoke) o.rules =
      inOrder (RuleOutline.run setting n invoke') o.rules :=
    inOrder_congr fun rule hrule => by
      unfold RuleOutline.run
      rw [hinvocations rule hrule]
  have hrun : o.run setting n invoke document input = o.run setting n invoke' document input := by
    unfold Outline.run
    rw [hrules]
  rw [result, result, hrun]

end Outline

/-! ### Invocations of actions -/

theorem actions_of_invocations {actions : List String} {spot next : Spot}
    {found : List Invocation} (h : spot.invocations actions = some (found, next)) :
    found.map Invocation.action = actions := by
  induction actions generalizing spot found with
  | nil =>
    cases h
    rfl
  | cons action rest ih =>
    rw [Spot.invocations] at h
    split at h
    · cases h
    · obtain ⟨⟨others, last⟩, hothers, h⟩ := Option.bind_eq_some_iff.1 h
      cases h
      rw [List.map_cons, ih hothers]
      rfl

theorem actions_of_outlines {evaluates : Bool} {rules : List Rule} {spot next : Spot} {index : Nat}
    {found : List RuleOutline} (h : Rule.outlines evaluates spot index rules = some (found, next))
    {r : RuleOutline} (hr : r ∈ found) :
    ∃ rule ∈ rules, r.invocations.map Invocation.action = rule.actions := by
  induction rules generalizing spot index found with
  | nil =>
    cases h
    cases hr
  | cons rule rest ih =>
    rw [Rule.outlines] at h
    obtain ⟨⟨first, middle⟩, hfirst, h⟩ := Option.bind_eq_some_iff.1 h
    obtain ⟨⟨others, last⟩, hothers, h⟩ := Option.bind_eq_some_iff.1 h
    cases h
    rcases List.mem_cons.1 hr with rfl | hr
    · unfold Rule.outline at hfirst
      obtain ⟨⟨condition, spot'⟩, -, hfirst⟩ := Option.bind_eq_some_iff.1 hfirst
      obtain ⟨⟨body, spot'⟩, -, hfirst⟩ := Option.bind_eq_some_iff.1 hfirst
      obtain ⟨⟨invocations, spot'⟩, hinvocations, hfirst⟩ := Option.bind_eq_some_iff.1 hfirst
      cases hfirst
      exact ⟨rule, .head _, actions_of_invocations hinvocations⟩
    · obtain ⟨rule, hrule, hactions⟩ := ih hothers hr
      exact ⟨rule, .tail _ hrule, hactions⟩

theorem action_of_outline {evaluates : Bool} {configuration : Configuration} {document : String}
    {o : Outline} (h : configuration.outline evaluates document = some o) {r : RuleOutline}
    (hr : r ∈ o.rules) {i : Invocation} (hi : i ∈ r.invocations) :
    ∃ rule ∈ configuration.rules, i.action ∈ rule.actions := by
  unfold Configuration.outline at h
  obtain ⟨⟨before, first⟩, -, h⟩ := Option.bind_eq_some_iff.1 h
  obtain ⟨⟨rules, second⟩, hrules, h⟩ := Option.bind_eq_some_iff.1 h
  obtain ⟨⟨after, last⟩, -, h⟩ := Option.bind_eq_some_iff.1 h
  cases h
  obtain ⟨rule, hrule, hactions⟩ := actions_of_outlines hrules hr
  exact ⟨rule, hrule, hactions ▸ List.mem_map_of_mem hi⟩

theorem not_mem_of_isName {name : String} (h : isName name = true) : '$' ∉ name.toList := by
  unfold isName at h
  split at h
  · cases h
  · rename_i c rest hname
    rw [Bool.and_eq_true, List.all_eq_true] at h
    rw [hname, List.mem_cons]
    rintro (rfl | hmem)
    · exact absurd h.1 (by decide)
    · exact absurd (h.2 _ hmem) (by decide)

theorem IsActionName.not_functionWord {evaluates : Bool} {action : String}
    (h : IsActionName evaluates action) : action ∉ Token.functionWords := by
  intro hmem
  have hreserved : (Token.functionWords.contains action || Token.keptWords.contains action) = true := by
    rw [List.contains_iff_mem.2 hmem, Bool.true_or]
  have hword := h.2
  unfold Lexer.wordToken at hword
  rw [String.ofList_toList] at hword
  dsimp only at hword
  rw [if_pos hreserved] at hword
  -- the words before the reserved ones are no names either
  repeat' split at hword
  all_goals cases hword

/-- A registered action is what an invocation of its name comes to, unless the language has a function
of its own for it. -/
theorem called_eq_performed {setting : Setting} {n : Nat} {i : Invocation} {evaluates : Bool}
    (hname : IsActionName evaluates i.action) (hfunction : setting.function? i.action 2 = none)
    (hregistered : setting.sandbox.actions.contains i.action = true)
    (h : Unhidden setting i.action) : Invocation.called setting n i = Invocation.performed setting i := by
  obtain ⟨action, haction⟩ : ∃ action, setting.sandbox.actions.get? i.action = some action :=
    Option.isSome_iff_exists.1 hregistered
  unfold Invocation.called Invocation.performed
  rw [run_action hname.not_functionWord hfunction h haction, haction]

/-! ### Compilation -/

theorem badAction?_eq_none {registered : String → Bool} {actions : List String}
    (h : ∀ action ∈ actions, isName action = true ∧ registered action = true) (label : String) :
    badAction? registered label actions = none := by
  induction actions with
  | nil => rfl
  | cons action rest ih =>
    obtain ⟨hname, hregistered⟩ := h action (.head _)
    rw [badAction?, hname, hregistered]
    exact ih fun a ha => h a (.tail _ ha)

theorem badReference?_eq_none {registered : String → Bool} {rules : List Rule}
    (h : ∀ rule ∈ rules, ∀ action ∈ rule.actions, isName action = true ∧ registered action = true)
    (index : Nat) : badReference? registered index rules = none := by
  induction rules generalizing index with
  | nil => rfl
  | cons rule rest ih =>
    rw [badReference?, badAction?_eq_none (h rule (.head _)), Option.none_or]
    exact ih (fun r hr => h r (.tail _ hr)) _

/-- A configuration with an outline whose actions are registered compiles to the script of the outline. -/
theorem build_of_outline {configuration : Configuration} {document : String} {sandbox : Sandbox}
    {o : Outline} (houtline : configuration.outline (!sandbox.mode.isSecure) document = some o)
    (hactions : ∀ rule ∈ configuration.rules, ∀ action ∈ rule.actions,
      IsActionName (!sandbox.mode.isSecure) action ∧ sandbox.actions.contains action = true) :
    let text := scriptText configuration document
    compileWithDocument configuration document sandbox.actions = .ok text ∧
      Script.build sandbox text = .ok (o.script document text sandbox) ∧
      ∀ f ∈ o.functions, f.IsAnonymous := by
  intro text
  obtain ⟨hread, hfunctions⟩ := read_scriptText (fun rule hrule action haction =>
    (hactions rule hrule action haction).1) houtline
  refine ⟨?_, ?_, hfunctions⟩
  · unfold compileWithDocument
    rw [badReference?_eq_none fun rule hrule action haction =>
      ⟨(hactions rule hrule action haction).1.1, (hactions rule hrule action haction).2⟩]
  · unfold Script.build
    rw [hread]
    rfl

end Rulebook
