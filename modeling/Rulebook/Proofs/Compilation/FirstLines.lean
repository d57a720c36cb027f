import Rulebook.Proofs.Compilation.Simulation
import Rulebook.Proofs.Script.Signatures
import Rulebook.Workbench

/-!
# The first lines of a script

The function of a script begins with the lines that read the input and the document, whatever the
statements are that were taken into it. So a script that can be read can be read for every document,
with the same statements behind these lines: `exists_build`. What a call of it comes to is what these
statements make of the input and the document, unless something that was taken into the script stands
outside of its function: `execute_of_build`.
-/

namespace Rulebook

open Script Script.Lexer Script.Reader Script.Eval Compilation

/-! ### Cutting -/

theorem Script.Position.line_afterAll (p : Position) (cs : List Char) :
    (p.afterAll cs).line = p.line + cs.count '\n' := by
  induction cs generalizing p with
  | nil => rfl
  | cons c cs ih =>
    have hcs : p.afterAll (c :: cs) = (p.after c).afterAll cs := rfl
    rw [hcs, ih, List.count_cons, Position.after]
    split
    · rename_i h
      subst h
      simp only [beq_self_eq_true, if_true]
      omega
    · rename_i h
      have hne : ¬(c == '\n') = true := by simpa using h
      rw [if_neg hne]
      rfl

/-- What the lexer remembers behind the lines that read the input and the document. -/
def Compilation.linesRead : Progress := { position := ⟨5, 1⟩ }

theorem count_charsOf_firstLines (document : String) :
    (charsOf (headLine ++ readingLines document)).count '\n' = 3 := by
  have hliteral : (document.toList.flatMap literalChar).count '\n' = 0 := by
    refine List.count_eq_zero.2 fun hmem => ?_
    have := (spelled_flatMap document.toList).space_le _ hmem
    exact absurd this (by decide)
  simp only [headLine, readingLines, charsOf, List.flatMap_append, List.flatMap_cons, List.flatMap_nil,
    Lexeme.chars, newLine, named, keyword, space, List.count_append, List.append_nil, List.count_cons,
    hliteral]
  decide

theorem progress_initial (document : String) :
    { (Spot.initial document).progress with
      position := (Spot.initial document).progress.position.after '\n' } = linesRead := by
  let first : Spot := ⟨{}, (Spot.initial document).reading⟩
  have hposition : (Spot.initial document).progress.position =
      Position.start.afterAll (charsOf (headLine ++ readingLines document)) :=
    first.position_past (headLine ++ readingLines document)
  have hbraces : (Spot.initial document).progress.braces = [] :=
    first.braces_past (headLine ++ readingLines document)
  have hoperand : (Spot.initial document).progress.operand = true := rfl
  have hbreak (p : Position) : p.after '\n' = ⟨p.line + 1, 1⟩ := rfl
  rw [hposition, hbreak, Position.line_afterAll, count_charsOf_firstLines]
  dsimp only
  rw [hbraces, hoperand]
  rfl

/-- The text of a script behind the lines that read the input and the document. -/
def Compilation.laterText (configuration : Configuration) : String :=
  groupText "pre-execution" configuration.before ++ rulesText 0 configuration.rules ++
    groupText "post-execution" configuration.after ++ closing

/-- The tokens of the first lines of a script. -/
def Compilation.firstTokens (document : String) : Tokens :=
  tokensOf .start headLine ++
    tokensOf (Position.start.afterAll (charsOf headLine)) (readingLines document)

/-- Behind its first lines, a script is cut in the same way whatever the document is. -/
theorem tokens_scriptText_eq (evaluates : Bool) (configuration : Configuration) (document : String) :
    let later := (laterText configuration).toList
    Lexer.tokens evaluates (scriptText configuration document) =
      (Lexer.scan evaluates (later.length + 1) linesRead later).map (firstTokens document ++ ·) := by
  intro later
  have hchars : (scriptText configuration document).toList =
      charsOf headLine ++ (charsOf (readingLines document) ++ '\n' :: later) := by
    rw [chars_scriptText]
    simp only [later, laterText, String.toList_append, List.append_assoc, List.cons_append]
  -- the line break makes the place independent of the literal
  have hbreak : scanStep evaluates (Spot.initial document).progress ('\n' :: later) =
      .ok ([], linesRead, later) := by
    rw [scanStep_blank (s := '\n' :: later) rfl, ← progress_initial document]
    exact congrArg (fun next => Except.ok ([], next, later))
      ((Spot.initial document).progress.past_eq ['\n'] later)
  have hcuts : Cuts evaluates {} (scriptText configuration document).toList
      (firstTokens document ++ ([] ++ [])) linesRead later := by
    rw [hchars]
    exact (cuts_firstLines document ('\n' :: later)).append
      (.step (List.cons_ne_nil _ _) hbreak (.done _ _))
  obtain ⟨fuel, hfuel, hscan⟩ := hcuts.scan (Nat.lt_succ_self _)
  rw [Lexer.tokens, hscan, scan_congr hfuel (Nat.lt_succ_self _), List.append_nil, List.append_nil]

/-- If the text of a script can be cut into tokens, then so can the text for every document, and only
the first tokens differ. -/
theorem exists_tokens_of_read {evaluates : Bool} {configuration : Configuration} {document : String}
    {program : Program}
    (h : Program.read evaluates (scriptText configuration document) = .ok program) :
    ∃ rest, ∀ other, Lexer.tokens evaluates (scriptText configuration other) =
      .ok (firstTokens other ++ rest) := by
  have heq := tokens_scriptText_eq evaluates configuration
  cases hscan : Lexer.scan evaluates ((laterText configuration).toList.length + 1) linesRead
      (laterText configuration).toList with
  | error err =>
    rw [Program.read, heq, hscan] at h
    cases h
  | ok rest => exact ⟨rest, fun other => by rw [heq, hscan]; rfl⟩

/-! ### Reading -/

namespace Script.Reader

/-- What is known in the function of a script once the input is a variable. -/
def inputKnown : Reading :=
  { inFunctionBody with locals := [("input", false), ("input_json", false)] }

/-- The lines that read the input and the document are read as three statements, whatever follows. -/
theorem run_readingLines (start : Position) (document : String) (depth fuel : Nat) (rest : Tokens) :
    (statementsUpTo (readStmt (depth + 8)) (fuel + 3)).run
        (inFunctionBody.withTokens (tokensOf start (readingLines document) ++ rest)) =
      (inFront (readingStmts start document) (statementsUpTo (readStmt (depth + 8)) fuel)).run
        ((Spot.initial document).reading.withTokens rest) := by
  unfold readingStmts
  rw [tokensOf_eq]
  generalize placeOf start (readingLines document) = p
  let tokens : Tokens := placed p 0 ((readingLines document).filterMap Lexeme.token?)
  have hinput : Gives (readStmt (depth + 8)) (inFunctionBody.withTokens (tokens ++ rest))
      (.declare "input" (some (.constant .unit (p 3))) false (p 1))
      (inputKnown.withTokens (tokens.drop 5 ++ rest)) := rfl
  have hattempt : Gives (readStmt (depth + 8)) (inputKnown.withTokens (tokens.drop 6 ++ rest))
      (.attempt [.assign (.name "input" (p 8)) none
        (.call "json_parse" [.name "input_json" (p 12)] (p 10)) (p 9)]
        (some "err") [.answer (some (.name "input_json" (p 22)))])
      (inputKnown.withTokens (tokens.drop 25 ++ rest)) := rfl
  have hdocument : Gives (readStmt (depth + 8)) (inputKnown.withTokens (tokens.drop 25 ++ rest))
      (.declare "document"
        (some (.call "json_parse" [.constant (.text document) (p 30)] (p 28))) false (p 26))
      ((Spot.initial document).reading.withTokens (tokens.drop 32 ++ rest)) := rfl
  have hfirstEnd : (inputKnown.withTokens (tokens.drop 5 ++ rest)).tokens =
      (.sign ";", p 5) :: (tokens.drop 6 ++ rest) := rfl
  have hlastEnd : ((Spot.initial document).reading.withTokens (tokens.drop 32 ++ rest)).tokens =
      (.sign ";", p 32) :: rest := rfl
  have hlast : (statementsUpTo (readStmt (depth + 8)) (fuel + 1)).run
      (inputKnown.withTokens (tokens.drop 25 ++ rest)) = _ :=
    run_statementsUpTo_semicolon hdocument (by simp) hlastEnd
  have hmiddle : (statementsUpTo (readStmt (depth + 8)) (fuel + 2)).run
      (inputKnown.withTokens (tokens.drop 6 ++ rest)) = _ :=
    run_statementsUpTo_endsItself hattempt (by simp) rfl rfl rfl
  have hfirst : (statementsUpTo (readStmt (depth + 8)) (fuel + 3)).run
      (inFunctionBody.withTokens (tokens ++ rest)) = _ :=
    run_statementsUpTo_semicolon hinput (by simp) hfirstEnd
  refine hfirst.trans ((run_inFront_of_run_eq (hmiddle.trans (run_inFront_of_run_eq hlast))).trans ?_)
  rw [run_inFront_inFront, run_inFront_inFront]
  rfl

/-- What is known once the document is a variable, too. -/
def documentKnown : Reading :=
  { inFunctionBody with locals := [("document", false), ("input", false), ("input_json", false)] }

/-- The body of the function of a script begins with three statements. What follows them does not
depend on the document. -/
theorem gives_blockRest_readingLines {start : Position} {document : String} {depth : Nat}
    {rest : Tokens} {body : List Stmt} {u : Reading} :
    Gives (blockRest (readStmt (depth + 8)))
        (inFunctionBody.withTokens (tokensOf start (readingLines document) ++ rest)) body u ↔
      ∃ tail v, Gives (statementsUpTo (readStmt (depth + 8)) (rest.length + 31))
          (documentKnown.withTokens rest) tail v ∧
        body = readingStmts start document ++ tail ∧ u = { v with locals := inFunctionBody.locals } := by
  have hlength : (tokensOf start (readingLines document) ++ rest).length + 1 = rest.length + 31 + 3 := by
    have hlines : (tokensOf start (readingLines document)).length = 33 := rfl
    rw [List.length_append, hlines]
    omega
  unfold blockRest
  rw [gives_bind_of_run (r := get) rfl]
  unfold inScope
  rw [gives_bind_of_run (r := get) rfl]
  dsimp only [Reading.withTokens]
  rw [hlength, gives_bind]
  -- reading three statements more costs three rounds more
  have hrun := run_readingLines start document depth (rest.length + 31) rest
  constructor
  · rintro ⟨body, v, hbody, h⟩
    change (statementsUpTo _ _).run (inFunctionBody.withTokens _) = _ at hbody
    rw [hrun] at hbody
    obtain ⟨tail, rfl, htail⟩ := gives_inFront hbody
    rw [gives_bind_of_run (r := modify _) rfl] at h
    obtain ⟨rfl, rfl⟩ := gives_pure.1 h
    exact ⟨tail, v, htail, rfl, rfl⟩
  · rintro ⟨tail, v, htail, rfl, rfl⟩
    refine ⟨readingStmts start document ++ tail, v, ?_, ?_⟩
    · change (statementsUpTo _ _).run (inFunctionBody.withTokens _) = _
      rw [hrun]
      exact gives_bind.2 ⟨tail, v, htail, gives_pure.2 ⟨rfl, rfl⟩⟩
    · rw [gives_bind_of_run (r := modify _) rfl]
      exact gives_pure.2 ⟨rfl, rfl⟩

end Script.Reader

/-- The function of a script that begins with the lines that read the input and a document. -/
def Compilation.entryFunction (tail : List Stmt) (document : String) : Function :=
  ⟨entryPoint, ["input_json"],
    readingStmts (Position.start.afterAll (charsOf headLine)) document ++ tail⟩

/-- The program with this function, between others. -/
def Compilation.framed (before : List Function) (tail : List Stmt) (after : List Function)
    (statements : List Stmt) (document : String) : Program where
  functions := before ++ entryFunction tail document :: after
  statements

/-- A script that can be read can be read for all documents, and only the first lines of its function
differ. -/
theorem exists_framed_of_read {evaluates : Bool} {configuration : Configuration} {document : String}
    {program : Program}
    (h : Program.read evaluates (scriptText configuration document) = .ok program) :
    ∃ before tail after statements, (∀ f ∈ before, f.IsAnonymous) ∧ ∀ other : String,
      Program.read evaluates (scriptText configuration other) =
        .ok (framed before tail after statements other) := by
  let start := Position.start.afterAll (charsOf headLine)
  obtain ⟨rest, htokens⟩ := exists_tokens_of_read h
  obtain ⟨statements, t, hgives⟩ := exists_gives_of_read (htokens document) h
  -- the number of tokens, and with it the bound on the depth, is the same for all documents
  have hfuel (other : String) : 2 * (firstTokens other ++ rest).length + 4 =
      (2 * rest.length + 74) + 8 := by
    have hfirst : (firstTokens other).length = 39 := rfl
    rw [List.length_append, hfirst]
    omega
  let place := placeOf .start headLine
  have hhead (other : String) : firstTokens other ++ rest =
      headTokens place ++ (tokensOf start (readingLines other) ++ rest) := by
    rw [← List.append_assoc]
    exact congrArg (· ++ _ ++ rest) (tokensOf_eq .start headLine)
  rw [hfuel, hhead] at hgives
  obtain ⟨body, u, hbody, hprogram⟩ := gives_program.1 hgives
  obtain ⟨tail, v, htail, rfl, rfl⟩ := gives_blockRest_readingLines.1 hbody
  -- behind the function, only the signatures of the functions before it matter
  obtain ⟨after, hafter, hblind⟩ := grows_program _ _ hprogram
  refine ⟨v.functions, tail, after, statements, fun f hf => ?_, fun other => ?_⟩
  · have parts := parts_of_le (Nat.le_refl (2 * rest.length + 74 + 8))
    have hmem := ((parts.blockRest : ExtendsTaking _ 0 0 _ _).forward.later hbody).mem_functions hf
    exact hmem.resolve_left fun hnil => by cases hnil
  · let functions := v.functions ++ [entryFunction tail other]
    have hother := hblind functions (by simp [functions, SameSignatures, afterFunction, entryFunction])
    have hwhole : Gives (Reader.program (readStmt (2 * rest.length + 74 + 8))
        (2 * rest.length + 74 + 8)) { tokens := firstTokens other ++ rest } statements
        (t.withFunctions (functions ++ after)) := by
      rw [hhead]
      exact gives_program.2 ⟨_, _, gives_blockRest_readingLines.2 ⟨tail, v, htail, rfl, rfl⟩, hother⟩
    rw [← hfuel other] at hwhole
    rw [read_of_gives (htokens other) hwhole, framed]
    simp [Reading.withFunctions, functions]

/-! ### Tidying -/

/-- The first lines stay, and what is left of the statements behind them does not depend on the
document. -/
theorem exists_simplifyBody_readingStmts (tail : List Stmt) : ∃ rest, ∀ start document,
    Program.simplifyBody (readingStmts start document ++ tail) = readingStmts start document ++ rest := by
  obtain ⟨rest, hrest⟩ := Stmt.exists_trim_append (Stmt.flatten (Stmt.simplifyAll true tail))
  refine ⟨rest, fun start document => ?_⟩
  have hreading : Stmt.flatten (Stmt.simplifyAll true (readingStmts start document)) =
    readingStmts start document := rfl
  rw [Program.simplifyBody, Stmt.tidy, Stmt.simplifyAll_append, Stmt.flatten_append, hreading]
  refine hrest ((readingStmts start document).take 2) _ ?_ rfl rfl
  intro s hs
  rcases List.mem_cons.1 hs with rfl | hs
  · rfl
  · rw [List.mem_singleton.1 hs]
    rfl

/-! ### Scripts -/

namespace Script

/-- The statements of a script behind its first lines. -/
def remainder (script : Script) : List Stmt :=
  (((script.setting {}).function? entryPoint 1).map fun f => f.body.drop 3).getD []

/-- Whether what was taken into a script stays inside of its function and does not hide the reader of
JSON. Statements whose braces do not match may go on outside of it. -/
structure Enclosed (script : Script) : Prop where
  statements : script.program.statements = []
  parse : ∀ f ∈ script.program.functions, f.name = "json_parse" → f.parameters.length ≠ 1

/-- What a script does with an input and a document. -/
def runFrom (script : Script) (host : Host) (input document : Datum) : Eval Datum := do
  declare "input" input false
  declare "document" document false
  Eval.run (script.setting host) depth (.body script.remainder)

/-- What a script does with an input and the text of a document. -/
def proceed (script : Script) (host : Host) (document : String) (input : Datum) : Eval Datum := do
  let place := placeOf (Position.start.afterAll (charsOf headLine)) (readingLines document) 28
  declare "input" input false
  declare "document" (← parse document place) false
  Eval.run (script.setting host) depth (.body script.remainder)

/-- What a script does with the text of an input: a text that is not JSON is answered as it is. -/
def work (script : Script) (host : Host) (document input : String) : Eval Datum :=
  match Datum.readJson? input with
  | none => return .text input
  | some value => script.proceed host document value

variable {script : Script} {host : Host} {document input : String} {value start : Datum}

theorem work_of_none (h : Datum.readJson? input = none) :
    script.work host document input = return .text input := by
  rw [work, h]

theorem work_of_some (h : Datum.readJson? input = some value) :
    script.work host document input = script.proceed host document value := by
  rw [work, h]

theorem proceed_of_some (h : Datum.readJson? document = some start) :
    script.proceed host document value = script.runFrom host value start := by
  rw [proceed, parse_of_some h]
  rfl

theorem Enclosed.function?_parse (h : script.Enclosed) (host : Host) :
    (script.setting host).function? "json_parse" 1 = none := by
  refine List.find?_eq_none.2 fun f hf => ?_
  simp only [Bool.and_eq_true, beq_iff_eq, not_and]
  exact h.parse f hf

end Script

/-- The output and the result of a call of the function of a script whose body is `work`. -/
def entryResult (work : Eval Datum) (input : String) :
    Output × Except Fault (Except ScriptError String) :=
  let call := callFunction (fun _ => work) ⟨entryPoint, ["input_json"], []⟩ [.text input] none none
  let (result, state) := valueOf call {}
  (state.output, resultOf result)

theorem entryResult_text (text input : String) :
    (entryResult (return .text text) input).2 = .ok (.ok text) := rfl

/-- A run whose document cannot be read ends with an error. -/
theorem entryResult_of_unreadable {script : Script} {host : Host} {document : String}
    (h : Datum.readJson? document = none) (value : Datum) (input : String) :
    ∃ err, (entryResult (script.proceed host document value) input).2 = .ok (.error (.eval err)) := by
  rw [Script.proceed, parse_of_none h]
  exact ⟨_, rfl⟩

/-- The body of the function of a script reads the input and the document, and then runs what stands
behind its first lines. -/
theorem Script.Enclosed.settle_body {script : Script} (h : script.Enclosed) (host : Host)
    (document input : String) (s : State) :
    let start := Position.start.afterAll (charsOf headLine)
    let outer : State := { s with scope := [⟨"input_json", .text input, false⟩] }
    ∃ scope, settle (Eval.run (script.setting host) depth
        (.body (readingStmts start document ++ script.remainder))) outer =
      ((settle (script.work host document input) outer).1,
        { (settle (script.work host document input) outer).2 with scope }) := by
  intro start outer
  let setting := script.setting host
  let place := placeOf start (readingLines document)
  obtain ⟨n, hn⟩ : ∃ n, depth = n + 4 := ⟨depth - 4, by decide⟩
  have hreading := inOrder_readingStmts (n := n) (h.function?_parse host) start document s input []
  have hbody : Eval.run setting depth (.body (readingStmts start document ++ script.remainder)) = (do
      inOrder (stmt setting (Eval.run setting (n + 3))) (readingStmts start document)
      Eval.run setting depth (.body script.remainder)) := by
    rw [hn]
    refine body_append setting _ ((readingStmts start document).take 2) _ (m := do
      declare "document" (← optional (Eval.run setting (n + 3))
        (some (.call "json_parse" [.constant (.text document) (place 30)] (place 28)))) false) ?_
    rw [bind_assoc]
    rfl
  rw [hbody]
  -- a text that is not JSON is answered before anything of the remainder runs
  cases hinput : Datum.readJson? input with
  | none =>
    rw [hinput] at hreading
    refine ⟨readingScope .unit input [], ?_⟩
    rw [settle_of_answered (bind_of_error hreading _), work_of_none hinput]
    rfl
  | some value =>
    rw [hinput] at hreading
    dsimp only at hreading
    rw [work_of_some hinput]
    refine ⟨(settle (script.proceed host document value) outer).2.scope, settle_of_eq ?_⟩
    refine (bind_of_eq hreading _).trans ?_
    rw [bind_assoc]
    rfl

/-- A function without effectless statements. -/
def Script.Function.simplify (f : Function) : Function := { f with body := Program.simplifyBody f.body }

/-- The functions of a program with the function of a script between others. -/
theorem functions_simplify_framed (before after : List Function) {tail rest : List Stmt}
    (statements : List Stmt) (document : String)
    (h : Program.simplifyBody (readingStmts (Position.start.afterAll (charsOf headLine)) document ++ tail)
      = readingStmts (Position.start.afterAll (charsOf headLine)) document ++ rest) :
    (framed before tail after statements document).simplify.functions =
      before.map Function.simplify ++ entryFunction rest document :: after.map Function.simplify := by
  have hentry : (entryFunction tail document).simplify = entryFunction rest document :=
    congrArg (Function.mk entryPoint ["input_json"]) h
  change List.map Function.simplify (before ++ entryFunction tail document :: after) = _
  rw [List.map_append, List.map_cons, hentry]

/-- A script that was built can be built for all documents. The statements behind the first lines stay
the same, and so does what stands outside of the function. -/
theorem exists_build {sandbox : Sandbox} {configuration : Configuration} {document : String}
    {script : Script} (h : Script.build sandbox (scriptText configuration document) = .ok script) :
    ∃ rest, ∀ other : String, ∃ next,
      Script.build sandbox (scriptText configuration other) = .ok next ∧
      (∀ host, (next.setting host).function? entryPoint 1 = some (entryFunction rest other)) ∧
      (script.Enclosed → next.Enclosed) := by
  unfold Script.build at h
  split at h
  · rename_i program hread
    cases h
    obtain ⟨before, tail, after, statements, hbefore, hframed⟩ := exists_framed_of_read hread
    obtain ⟨rest, hrest⟩ := exists_simplifyBody_readingStmts tail
    have hfunctions (document : String) :=
      functions_simplify_framed before after statements document (hrest _ document)
    cases (hread.symm.trans (hframed document))
    refine ⟨rest, fun other => ⟨⟨scriptText configuration other,
      (framed before tail after statements other).simplify, sandbox⟩, ?_, fun host => ?_, fun henclosed =>
      ⟨henclosed.statements, fun f hf hname => ?_⟩⟩⟩
    · rw [Script.build, hframed other]
    · show List.find? _ (framed before tail after statements other).simplify.functions = _
      rw [hfunctions, List.find?_append, List.find?_eq_none.2 ?_]
      · rfl
      · intro f hf
        obtain ⟨g, hg, rfl⟩ := List.mem_map.1 hf
        simp only [Bool.and_eq_true, beq_iff_eq, not_and]
        intro hname
        exact absurd hname ((hbefore g hg).name_ne (by decide))
    · have hparse := henclosed.parse
      dsimp only at hf hparse
      rw [hfunctions, List.mem_append, List.mem_cons] at hf
      rw [hfunctions] at hparse
      rcases hf with hf | rfl | hf
      · exact hparse f (List.mem_append_left _ hf) hname
      · have hentry : entryPoint ≠ "json_parse" := by decide
        exact absurd hname hentry
      · exact hparse f (List.mem_append_right _ (.tail _ hf)) hname
  · cases h

/-- What a script comes to on the text of an input, unless something that was taken into it stands
outside of its function. -/
theorem execute_of_build {sandbox : Sandbox} {configuration : Configuration} {document : String}
    {script : Script} (h : Script.build sandbox (scriptText configuration document) = .ok script)
    (henclosed : script.Enclosed) (input : String) (host : Host) :
    script.execute input host = entryResult (script.work host document input) input := by
  obtain ⟨rest, hnext⟩ := exists_build h
  obtain ⟨next, hbuild, hentry, -⟩ := hnext document
  cases Except.ok.inj (h.symm.trans hbuild)
  have hrest : script.remainder = rest := by
    rw [Script.remainder, hentry]
    rfl
  rw [← hrest] at hentry
  have hcall : callFunction (Eval.run (script.setting host) depth)
        (entryFunction script.remainder document) [.text input] none none =
      callFunction (fun _ => script.work host document input) ⟨entryPoint, ["input_json"], []⟩
        [.text input] none none :=
    callFunction_congr rfl fun s => henclosed.settle_body host document input
      { s with subject := none, calls := s.calls + 1 }
  unfold Script.execute Script.call
  rw [Script.evaluation_of_function henclosed.statements (hentry host), hcall]
  rfl

/-- For another document, the statements behind the first lines of a script stay the same. -/
theorem exists_build_with {sandbox : Sandbox} {configuration : Configuration} {document : String}
    {script : Script} (h : Script.build sandbox (scriptText configuration document) = .ok script)
    (other : String) : ∃ next, Script.build sandbox (scriptText configuration other) = .ok next ∧
      next.remainder = script.remainder ∧ (script.Enclosed → next.Enclosed) := by
  obtain ⟨rest, hnext⟩ := exists_build h
  have hremainder {script : Script} {document : String} (hentry : ∀ host,
      (script.setting host).function? entryPoint 1 = some (entryFunction rest document)) :
      script.remainder = rest := by
    rw [Script.remainder, hentry]
    rfl
  obtain ⟨same, hsame, hentry, -⟩ := hnext document
  cases Except.ok.inj (h.symm.trans hsame)
  obtain ⟨next, hbuild, hentry', henclosed⟩ := hnext other
  exact ⟨next, hbuild, (hremainder hentry').trans (hremainder hentry).symm, henclosed⟩

namespace Outline

variable {o : Outline}

/-- Nothing in the script of an outline stands outside of its function. -/
theorem enclosed (hfunctions : ∀ f ∈ o.functions, f.IsAnonymous) (document text : String)
    (sandbox : Sandbox) : (o.script document text sandbox).Enclosed where
  statements := rfl
  parse f hf hname := by
    have hnone := List.find?_eq_none.1
      (plain_setting hfunctions document text sandbox {}).parse f hf
    simp only [Bool.and_eq_true, beq_iff_eq, not_and] at hnone
    exact hnone hname

/-- Behind the first lines of the script of an outline stand its statements and the answer. -/
theorem remainder_script (hfunctions : ∀ f ∈ o.functions, f.IsAnonymous) (document text : String)
    (sandbox : Sandbox) :
    (o.script document text sandbox).remainder = Stmt.kept o.inner ++ [answerStmt o.answer] := by
  rw [Script.remainder, function?_entryPoint hfunctions, simplifyBody_body, List.append_assoc]
  rfl

end Outline
end Rulebook
