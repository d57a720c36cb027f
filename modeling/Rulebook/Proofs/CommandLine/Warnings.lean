import Rulebook.Proofs.CommandLine.Jobs
import Rulebook.Proofs.Engine.Payloads
import Rulebook.Proofs.Value.Liberties

/-!
# The warning before an input

Before the program hands an input to its engine, it warns if the rules will not see it. It decides
this with the verbatim reader, the engine with the reader of JSON. So a warning is always true, and
it is missing just for the texts that can be read verbatim without being JSON: `warning_of_input`.
-/

namespace Rulebook.CommandLine

open Script Script.Eval Compilation

/-- The warning that the rules will not see an input. -/
def warning : LogRecord :=
  ⟨.warn, "docrule", "Input is not valid JSON, rules will pass it through untouched"⟩

/-- Whether an invocation logs this warning, with the text of its configuration file. -/
def Warns (host : Host) (files : Fields String) (invocation : Invocation) (settings : Settings)
    (limit : Nat) (text : String) : Prop :=
  warning ∈ (Procedure.onHost host files ((job invocation settings limit text).run {})).1.logs

variable {host : Host} {files : Fields String} {engine : Engine}

/-- Whether an engine lets an input past its rules: whatever is declared, the input is not checked,
the answer is its text, and the document stays as it is. -/
structure Bypasses (host : Host) (files : Fields String) (engine : Engine) (input : String) :
    Prop where
  unchecked : ∀ specs, (Operation.executeJson input).request specs = some (.ok ⟨input, false⟩)
  answered : ((Engine.executeJson input).onHost host files engine).1 = .ok (.ok input)
  document : ((Engine.executeJson input).onHost host files engine).2.document = engine.document

/-! ### What an engine makes of an input -/

section

variable {loaded : Loaded} {script : Script} {input : String} {value : Value}

/-- Whether an engine shows a value to its rules: the value is checked, and if it passes the script
goes on with what it reads in the text, which agrees with the value. -/
structure Attends (host : Host) (files : Fields String) (engine : Engine) (loaded : Loaded)
    (script : Script) (input : String) (value : Value) : Prop where
  rejected : ∀ reason,
    Parameter.validate (Engine.payload value) loaded.configuration.parameters = .error reason →
      ((Engine.executeJson input).onHost host files engine).1 = .ok (.error (.validation reason))
  accepted : Parameter.validate (Engine.payload value) loaded.configuration.parameters = .ok () →
    ∃ datum, Datum.readJson? input = some datum ∧ Agree value datum ∧
      ((Engine.executeJson input).onHost host files engine).1 =
        (entryResult (script.proceed host loaded.document datum) input).2.map
          fun result => result.mapError .script

/-- What an engine does with an input is what the bare engine does with its request. -/
theorem onHost_executeJson (hu : engine.UpToDate) (hloaded : engine.loaded = some loaded)
    {result : Except EngineError Request} (hrequest :
      (Operation.executeJson input).request loaded.configuration.parameters = some result) :
    BareEngine.serve host result engine.bare =
      (((Engine.executeJson input).onHost host files engine).1,
        ((Engine.executeJson input).onHost host files engine).2.bare) := by
  have hfollows : Follows host files (Engine.executeJson input) (BareEngine.executeJson host input) :=
    Engine.follows_executeJson input
  rw [← (hfollows engine hu).2, BareEngine.executeJson_of_request hloaded host hrequest]

/-- An engine lets an input past its rules if and only if the text is not JSON. -/
theorem bypasses_iff (hu : engine.UpToDate) (hloaded : engine.loaded = some loaded)
    (hscript : engine.bare.script = .ok script) (henclosed : script.Enclosed) :
    Bypasses host files engine input ↔ Value.readJson? input = none := by
  constructor
  · intro h
    obtain ⟨_, _, hnone, -, -⟩ | ⟨_, hsame, hrequest⟩ := Operation.request_cases (h.unchecked [])
    · cases hnone
    · cases hsame
      have hkeeps : (Value.readJson? input).isSome = false := (congrArg Request.keeps hrequest).symm
      exact Option.isNone_iff_eq_none.1 (Option.isSome_eq_false_iff.1 hkeeps)
  · intro hnone
    have hserve := @onHost_executeJson host files engine loaded input hu hloaded _
      (Operation.request_of_unreadable hnone)
    have hread : Datum.readJson? input = none := by
      rw [← Option.not_isSome_iff_eq_none, ← isSome_readJson?, hnone]
      exact Bool.false_ne_true
    rw [BareEngine.serve_ok, BareEngine.run_apply hscript,
      BareEngine.execute_of_script hloaded hscript henclosed, Script.work_of_none hread,
      entryResult_text] at hserve
    obtain ⟨hanswer, hafter⟩ := Prod.mk.inj hserve
    refine ⟨fun _ => Operation.request_of_unreadable hnone, hanswer.symm, ?_⟩
    rw [← Engine.bare_document, ← hafter]
    rfl

/-- A JSON value is checked and shown to the rules. -/
theorem attends_of_some (hu : engine.UpToDate) (hloaded : engine.loaded = some loaded)
    (hscript : engine.bare.script = .ok script) (henclosed : script.Enclosed)
    (hvalue : Value.readJson? input = some value) :
    Attends host files engine loaded script input value := by
  constructor
  · intro reason hreason
    have hrequest : (Operation.executeJson input).request loaded.configuration.parameters =
        some (.error (.validation reason)) := by
      rw [Operation.request_of_readable hvalue, hreason]
      rfl
    have hserve := @onHost_executeJson host files engine loaded input hu hloaded _ hrequest
    exact (congrArg Prod.fst hserve).symm
  · intro haccepted
    have hrequest : (Operation.executeJson input).request loaded.configuration.parameters =
        some (.ok ⟨input, true⟩) := by
      rw [Operation.request_of_readable hvalue, haccepted]
      rfl
    obtain ⟨-, -, -, hagree⟩ := Operation.request_of_executeJson hrequest
    obtain ⟨datum, hdatum, hagree⟩ := hagree value hvalue
    have hserve := @onHost_executeJson host files engine loaded input hu hloaded _ hrequest
    rw [BareEngine.serve_ok, BareEngine.run_apply hscript,
      BareEngine.execute_of_script hloaded hscript henclosed, Script.work_of_some hdatum] at hserve
    refine ⟨datum, hdatum, hagree, ?_⟩
    rw [← congrArg Prod.fst hserve]
    rcases (entryResult (script.proceed host loaded.document datum) input).2 with
      fault | err | text
    · rfl
    · rfl
    · rfl

end

/-! ### The warning -/

/-- The program feeds its input to its engine, after a warning if the verbatim reader cannot read it. -/
theorem onHost_feed {invocation : Invocation} (h : invocation.parameters = []) :
    Procedure.onHost host files ((feed invocation).run engine) =
      ((if warnsAbout invocation.input then ⟨[warning], ""⟩ else ∅) ++
        (Procedure.onHost host files (Engine.executeJson invocation.input engine)).1,
        reported [] ((Engine.executeJson invocation.input).onHost host files engine)) := by
  rw [feed, h, List.isEmpty_nil, if_pos rfl]
  split
  · show Procedure.onHost host files (.emit ⟨[warning], ""⟩
      ((Job.ofSession [] (Engine.executeJson invocation.input)).run engine)) = _
    rw [Procedure.onHost_emit, onHost_ofSession]
  · rw [Output.empty_append]
    exact onHost_ofSession [] _

section

variable {invocation : Invocation} {settings : Settings} {limit : Nat} {text : String}

/-- No step before the input leaves the warning. -/
theorem warning_not_mem_steps :
    warning ∉ (invocation.steps settings limit text).flatMap Step.records := by
  have hopen : warning ≠
      ⟨.warn, "docrule", "Running in open mode, host functions are available to rules"⟩ := by decide
  simp only [Invocation.steps, Step.onlyIf, List.flatMap_cons, List.flatMap_nil, List.mem_append]
  split_ifs <;> simp [hopen]

/-- An invocation whose steps do not fail warns if the verbatim reader cannot read the input. -/
theorem warns_iff (hparameters : invocation.parameters = [])
    (hmanages : Engine.Manages host files (invocation.preparation settings limit text) {}) :
    Warns host files invocation settings limit text ↔ Verbatim.read? invocation.input = none := by
  let engine := invocation.prepared settings limit text host files
  have hcovers := (prepared_actsForeign : engine.ActsForeign).covers host
  have hcall : (Procedure.onHost host files (Engine.executeJson invocation.input engine)).1.own = [] :=
    Output.own_of_foreign
      (Engine.leaves_executeJson prepared_reachable.upToDate hcovers invocation.input)
  -- the program logs the warning itself; what the engine logs is foreign to it
  have hmem (output : Output) : warning ∈ output.logs ↔ warning ∈ output.own := by
    simp [Output.own, warning]
  rw [Warns, hmem, (onHost_job hmanages).2, List.mem_append, or_iff_right warning_not_mem_steps,
    onHost_feed hparameters, Output.own_append, hcall, List.append_nil,
    ← Option.isNone_iff_eq_none]
  split
  · rename_i hnone
    exact iff_of_true List.mem_cons_self hnone
  · rename_i hsome
    exact iff_of_false List.not_mem_nil hsome

/-- **A warning is always true.** An invocation whose steps do not fail feeds the prepared engine, whose
script is to stay inside of its function. It warns if the verbatim reader cannot read its input, and
then the engine lets the input past its rules. The engine does so with the texts that are not JSON, and
all others are checked and shown to the rules. A text that has the structure of JSON is never warned
about, though it is not JSON if it is nested too deeply, or if an escape or a number in it has no value.
Of the other texts, those that take no liberties are all warned about. -/
theorem warning_of_input (hparameters : invocation.parameters = [])
    (hmanages : Engine.Manages host files (invocation.preparation settings limit text) {})
    {loaded : Loaded} {script : Script}
    (hloaded : (invocation.prepared settings limit text host files).loaded = some loaded)
    (hscript : (invocation.prepared settings limit text host files).bare.script = .ok script)
    (henclosed : script.Enclosed) :
    let engine := invocation.prepared settings limit text host files
    let input := invocation.input
    let warned := Warns host files invocation settings limit text
    let bypassed := Bypasses host files engine input
    (Procedure.onHost host files ((job invocation settings limit text).run {})).2 =
        (Procedure.onHost host files ((closing invocation).run engine)).2 ∧
      (warned → bypassed) ∧
      (warned ↔ Verbatim.read? input = none) ∧
      (bypassed ↔ Value.readJson? input = none) ∧
      (∀ value, Value.readJson? input = some value →
        Attends host files engine loaded script input value) ∧
      (∀ tree, Json.Denotes input tree → ¬ warned ∧
        (bypassed ↔ tree.standard = none ∨ Json.maxDepth < tree.nesting)) ∧
      ((∀ tree, ¬ Json.Denotes input tree) →
        bypassed ∧ (Verbatim.Strict input.toList → warned)) := by
  intro engine input warned bypassed
  have hu : engine.UpToDate := prepared_reachable.upToDate
  have hwarned : warned ↔ Verbatim.read? input = none := warns_iff hparameters hmanages
  have hbypassed : bypassed ↔ Value.readJson? input = none :=
    bypasses_iff hu hloaded hscript henclosed
  have hunwarned {tree : Json.Written} (htree : Json.Denotes input tree) : ¬ warned := by
    rw [hwarned, Verbatim.read?_of_denotes htree]
    exact Option.some_ne_none _
  refine ⟨(onHost_job hmanages).1, ?_, hwarned, hbypassed,
    fun value => attends_of_some hu hloaded hscript henclosed, ?_, ?_⟩
  · intro hwarns
    exact hbypassed.2 (Value.readJson?_eq_none_of_not_denotes fun tree htree => hunwarned htree hwarns)
  · intro tree htree
    exact ⟨hunwarned htree, hbypassed.trans (Value.readJson?_eq_none_iff_of_denotes htree)⟩
  · intro hnone
    refine ⟨hbypassed.2 (Value.readJson?_eq_none_of_not_denotes hnone), fun hstrict => ?_⟩
    rw [hwarned, ← Option.not_isSome_iff_eq_none, Verbatim.isSome_read?_iff hstrict]
    rintro ⟨tree, htree⟩
    exact hnone tree htree

end

/-- The text of a configuration that writes its input down. -/
def writingText : String := "\x7b\"preExecution\": [\"document.seen = input\"]\x7d"

/-- An invocation whose input is a number with a bare point. -/
def pointing : Invocation := { path := "l.json", format := .json, input := "1." }

/-- A number with a bare point is let past the rules, and nothing is said about it. -/
theorem warning_of_input_of_point :
    ¬ Warns {} [] pointing {} 500 writingText ∧
      Bypasses {} [] (pointing.prepared {} 500 writingText {} []) "1." := by
  have hmanages : Engine.Manages {} [] (pointing.preparation {} 500 writingText) {} := by
    decide +kernel
  have hsecure : (pointing.prepared {} 500 writingText {} []).bare.mode.isSecure = true := by
    decide +kernel
  have hany : (pointing.prepared {} 500 writingText {} []).bare.loaded.any (fun loaded =>
      (loaded.configuration.outline false loaded.document).isSome &&
        loaded.configuration.rules.isEmpty) = true := by
    decide +kernel
  obtain ⟨loaded, hloaded, h⟩ := (Option.any_eq_true _ _).1 hany
  rw [Bool.and_eq_true, List.isEmpty_iff] at h
  obtain ⟨o, houtline⟩ := Option.isSome_iff_exists.1 h.1
  have hruns : (pointing.prepared {} 500 writingText {} []).bare.Runs loaded.configuration
      loaded.document o := by
    refine ⟨hloaded, by rw [hsecure]; exact houtline, fun rule hrule => ?_⟩
    rw [h.2] at hrule
    cases hrule
  have hunread : Value.readJson? "1." = none := by decide +kernel
  have hread : Verbatim.read? "1." ≠ none := by
    rw [← Option.isSome_iff_ne_none]
    decide +kernel
  obtain ⟨script, hscript, henclosed, -⟩ := hruns.exists_script
  rw [Engine.bare_loaded] at hloaded
  obtain ⟨-, -, hwarned, hbypassed, -⟩ :=
    warning_of_input rfl hmanages hloaded hscript henclosed
  exact ⟨fun hwarns => hread (hwarned.1 hwarns), hbypassed.2 hunread⟩

end Rulebook.CommandLine
