import Rulebook.Proofs.Compilation.Simulation
import Rulebook.Proofs.Script.Masking
import Rulebook.Workbench

/-!
# The text of an input

A script is called with the text of its input, reads the text in its first lines and goes on with the
value. It can still tell one text from another of the same value, as the text stays in scope under the
name `input_json`. A script that spares this name comes to the same for all texts of a value:
`execute_of_sparesText`.
-/

namespace Rulebook

open Script Script.Eval Compilation

section

variable {setting : Setting} {n : Nat} {rest : List Stmt} {last : Stmt} {text text' : String}
  {value : Datum}

/-- What follows the lines that read the input and the document ignores the text of the input. -/
theorem ignores_later (hs : Stmt.allSpare "input_json" (rest ++ [last]) = true) (document : String)
    (position : Position) (mask : Datum) :
    let later : Eval Datum := do
      declare "document" (← parse document position) false
      run setting (n + 4) (.body (rest ++ [last]))
    Ignores "input_json" mask Whatever later later := by
  let C := ignoring "input_json" mask
  have hparse : C.Relates Whatever (parse document position) (parse document position) := by
    unfold parse
    split
    · exact .pure trivial
    · exact .fail _ _
  refine hparse.bind fun document _ => (C.declare (fun name hname => ?_) _ _).next (ignores_run _ _ hs)
  cases hname
  decide

/-- The body of the function of a script comes to the same for texts of the same value, and leaves
states that only differ in the text. -/
theorem settle_body_of_readJson (hparse : setting.function? "json_parse" 1 = none) (start : Position)
    (document : String) (hs : Stmt.allSpare "input_json" (rest ++ [last]) = true)
    (h : Datum.readJson? text = some value) (h' : Datum.readJson? text' = some value) (s : State) :
    let body := run setting (n + 4) (.body (readingStmts start document ++ rest ++ [last]))
    settle body { s with scope := [⟨"input_json", .text text', false⟩] } =
      let ended := settle body { s with scope := [⟨"input_json", .text text, false⟩] }
      (ended.1, ended.2.masked "input_json" (.text text')) := by
  let position := placeOf start (readingLines document) 28
  let later : Eval Datum := do
    declare "document" (← parse document position) false
    run setting (n + 4) (.body (rest ++ [last]))
  have hlater : Ignores "input_json" (.text text') Whatever later later := ignores_later hs _ _ _
  -- the first lines bring the value into scope, with the text below it
  have hbody {text : String} (h : Datum.readJson? text = some value) :
      run setting (n + 4) (.body (readingStmts start document ++ rest ++ [last]))
          { s with scope := [⟨"input_json", .text text, false⟩] } =
        later { s with scope := readingScope value text [] } := by
    have hreading := inOrder_readingStmts (n := n) hparse start document s text []
    rw [h] at hreading
    dsimp only at hreading
    change body setting (run setting (n + 3)) _ _ = _
    rw [body_concat, inOrder_append, bind_assoc]
    refine (bind_of_eq hreading _).trans ?_
    have hrest : run setting (n + 4) (.body (rest ++ [last])) = (do
        inOrder (stmt setting (run setting (n + 3))) rest
        stmt setting (run setting (n + 3)) last) := body_concat setting _ rest last
    simp only [later, hrest, bind_assoc, position]
  have hmasked : ({ s with scope := readingScope value text' [] } : State) =
      State.masked "input_json" (.text text') { s with scope := readingScope value text [] } := by
    simp [State.masked, readingScope, Variable.masked]
  have hsame := hlater.settle.same { s with scope := readingScope value text [] }
  rw [← hmasked] at hsame
  dsimp only
  rw [settle_of_eq (hbody h), settle_of_eq (hbody h'), hsame]

/-- The function of a script comes to the same for texts of the same value. -/
theorem callFunction_of_readJson (hparse : setting.function? "json_parse" 1 = none)
    (start : Position) (document : String)
    (hs : Stmt.allSpare "input_json" (rest ++ [last]) = true)
    (h : Datum.readJson? text = some value) (h' : Datum.readJson? text' = some value) :
    let f : Function := ⟨entryPoint, ["input_json"], readingStmts start document ++ rest ++ [last]⟩
    callFunction (run setting (n + 4)) f [.text text'] none none =
      callFunction (run setting (n + 4)) f [.text text] none none := by
  intro f
  funext s
  have hsame : settle (run setting (n + 4) (.body f.body)) (enter f.parameters [.text text'] none s) =
      let ended := settle (run setting (n + 4) (.body f.body)) (enter f.parameters [.text text] none s)
      (ended.1, ended.2.masked "input_json" (.text text')) :=
    settle_body_of_readJson hparse start document hs h h' { s with subject := none, calls := s.calls + 1 }
  rw [callFunction_apply, callFunction_apply, hsame]
  rfl

end

/-! ### Scripts -/

/-- Whether a script reads its input in the first lines of its function, and spares the text of the input
after that. -/
structure Script.SparesText (script : Script) : Prop where
  parse : ∀ host, (script.setting host).function? "json_parse" 1 = none
  entry : ∃ (start : Position) (document : String) (rest : List Stmt) (last : Stmt),
    Stmt.allSpare "input_json" (rest ++ [last]) = true ∧
      ∀ host, (script.setting host).function? entryPoint 1 =
        some ⟨entryPoint, ["input_json"], readingStmts start document ++ rest ++ [last]⟩

/-- A script that spares the text of its input comes to the same for all texts of a value. -/
theorem Script.execute_of_sparesText {script : Script} (hscript : script.SparesText)
    {text text' : String} {value : Datum} (h : Datum.readJson? text = some value)
    (h' : Datum.readJson? text' = some value) (host : Host) :
    script.execute text' host = script.execute text host := by
  obtain ⟨start, document, rest, last, hs, hentry⟩ := hscript.entry
  obtain ⟨n, hn⟩ : ∃ n, depth = n + 4 := ⟨depth - 4, by decide⟩
  have hcall := callFunction_of_readJson (n := n) (hscript.parse host) start document hs h h'
  have hevaluation : evaluation (script.setting host) script.program entryPoint text' =
      evaluation (script.setting host) script.program entryPoint text := by
    unfold evaluation
    rw [hentry host, hn]
    dsimp only
    rw [hcall]
  rw [Script.execute, Script.execute, Script.call, Script.call, hevaluation]

namespace Outline

/-- The script of an outline spares the text of its input if the statements of the outline do. -/
theorem sparesText_script {o : Outline} (hfunctions : ∀ f ∈ o.functions, f.IsAnonymous)
    (hs : Stmt.allSpare "input_json" (Stmt.kept o.inner) = true) (document text : String)
    (sandbox : Sandbox) : (o.script document text sandbox).SparesText where
  parse host := (plain_setting hfunctions document text sandbox host).parse
  entry := by
    refine ⟨Position.start.afterAll (charsOf headLine), document, Stmt.kept o.inner,
      answerStmt o.answer, ?_, fun host => ?_⟩
    · rw [Stmt.allSpare_append, hs]
      rfl
    · rw [function?_entryPoint hfunctions, simplifyBody_body]

/-- The script of a configuration spares the text of its input if the statements and conditions of the
configuration do. -/
theorem exists_script_of_spares {configuration : Configuration} {document : String}
    {sandbox : Sandbox} {o : Outline}
    (houtline : configuration.outline (!sandbox.mode.isSecure) document = some o)
    (hactions : ∀ rule ∈ configuration.rules, ∀ action ∈ rule.actions,
      IsActionName (!sandbox.mode.isSecure) action ∧ sandbox.actions.contains action = true)
    (hs : Stmt.allSpare "input_json" (Stmt.kept o.inner) = true) :
    ∃ text script, compileWithDocument configuration document sandbox.actions = .ok text ∧
      Script.build sandbox text = .ok script ∧ script.SparesText := by
  obtain ⟨hcompile, hbuild, hfunctions⟩ := build_of_outline houtline hactions
  exact ⟨_, _, hcompile, hbuild, sparesText_script hfunctions hs _ _ _⟩

end Outline
end Rulebook
