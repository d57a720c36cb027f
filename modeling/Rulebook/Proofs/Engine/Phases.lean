import Rulebook.Proofs.Engine.Closure

/-!
# The phases that a monitor records

Checking an input, building a script and running it are phases of a call, and an enabled monitor
records a marker for each of them. `Operation.phases` says which phases an operation has, and
`phases_recorded` that these are the markers that it adds. The script is built again exactly if
nothing was built since one of the things changed that it depends on: `Engine.Trail` is what was done
with an engine so far, and `keepsAfter` what follows from it for the script.
-/

namespace Rulebook

namespace Monitor

/-- Whether markers were added between two states of a monitor: markers of the given labels if it
recorded, and else none. -/
def Adds (labels : List String) (before after : Monitor) : Prop :=
  ∃ added, after.markers = before.markers ++ added ∧
    added.map (·.label) = if before.enabled then labels else []

/-- Whether phases of the given labels were measured between two states of a monitor, all of them
from start to end. -/
structure Records (labels : List String) (before after : Monitor) : Prop where
  enabled : after.enabled = before.enabled
  running : after.running = before.running
  adds : Adds labels before after

theorem adds_nil {before after : Monitor} (h : after.markers = before.markers) :
    Adds [] before after :=
  ⟨[], by rw [h, List.append_nil], (ite_self _).symm⟩

theorem Records.refl (monitor : Monitor) : Records [] monitor monitor := ⟨rfl, rfl, adds_nil rfl⟩

theorem Records.of_eq {before after : Monitor} (h : after = before) : Records [] before after :=
  h ▸ Records.refl before

variable {first second : List String} {before middle after : Monitor}

theorem Records.adds_append (h : Records first before middle) (hsecond : Adds second middle after) :
    Adds (first ++ second) before after := by
  obtain ⟨added, hmarkers, hlabels⟩ := h.adds
  obtain ⟨more, hmore, hlabelsMore⟩ := hsecond
  refine ⟨added ++ more, by rw [hmore, hmarkers, List.append_assoc], ?_⟩
  rw [List.map_append, hlabels, hlabelsMore, h.enabled]
  split <;> rfl

theorem Records.append (h : Records first before middle) (hsecond : Records second middle after) :
    Records (first ++ second) before after :=
  ⟨hsecond.enabled.trans h.enabled, hsecond.running.trans h.running, h.adds_append hsecond.adds⟩

/-- A phase that stops right after its start is recorded. -/
theorem records_stop_start (monitor : Monitor) (label : String) (start stop : Nat) :
    Records [label] monitor ((monitor.start label start).stop label stop).1 := by
  rw [stop_start]
  split
  · rename_i henabled
    exact ⟨rfl, rfl, [⟨label, start, stop⟩], rfl, by rw [if_pos henabled]; rfl⟩
  · rename_i henabled
    exact ⟨rfl, rfl, [], by rw [List.append_nil], by rw [if_neg henabled]; rfl⟩

end Monitor

/-! ### Phases of operations -/

/-- Whether the engine keeps a script that is up to date. -/
def Engine.keepsScript (engine : Engine) : Bool := (engine.compiled.bind (·.script)).isSome

/-- Whether there is a script of what is loaded. -/
def Engine.hasScript (engine : Engine) : Bool := engine.bare.script.toOption.isSome

/-- The phases of a run of the rules. -/
def Engine.runPhases (engine : Engine) : List String :=
  (if engine.keepsScript then [] else [Monitor.compilation]) ++
    if engine.hasScript then [Monitor.execution] else []

namespace Operation

/-- Whether an operation is a call whose input is not checked, because it is not JSON. -/
def isUnchecked : Operation → Bool
  | executeJson input => (Value.readJson? input).isNone
  | _ => false

/-- Whether an operation is a call on an engine with a configuration whose input is accepted or not
checked. -/
def runsRules (operation : Operation) (engine : Engine) : Bool :=
  match engine.loaded with
  | some loaded =>
    match operation.request loaded.configuration.parameters with
    | some result => result.toOption.isSome
    | none => false
  | none => false

/-- The phases of a call, in order. With a configuration it checks its input, unless that is not JSON,
and runs the rules, unless the input is refused. Without one it fails, but not before it is about to
build the script if there is nothing to check. -/
def callPhases (operation : Operation) (engine : Engine) : List String :=
  match engine.loaded with
  | some _ =>
    (if operation.isUnchecked then [] else [Monitor.validation]) ++
      if operation.runsRules engine then engine.runPhases else []
  | none => if operation.isUnchecked then [Monitor.compilation] else []

/-- The phases of an operation, in order. -/
def phases : Operation → Engine → List String
  | scriptText, engine => if engine.compiled.isNone then [Monitor.compilation] else []
  | execute parameters, engine => (execute parameters).callPhases engine
  | executeStrings parameters, engine => (executeStrings parameters).callPhases engine
  | executeJson input, engine => (executeJson input).callPhases engine
  | _, _ => []

/-- Whether an operation is one that engines offer: their monitor can be enabled, disabled and reset,
and not changed in other ways. -/
def IsOffered : Operation → Prop
  | setMonitor change => change = Monitor.enable ∨ change = Monitor.disable ∨ change = Monitor.reset
  | _ => True

end Operation

/-! ### What was done with an engine -/

/-- An operation that was performed, with the engine before and after it. -/
structure Deed where
  before : Engine
  operation : Operation
  after : Engine

/-- What was done with a fresh engine, the latest first, and the engine that it led to. Every operation
was performed on a host of its own and answered with a result or an error. -/
inductive Engine.Trail : List Deed → Engine → Prop where
  | fresh : Trail [] {}
  | perform {deeds : List Deed} {engine after : Engine} {operation : Operation}
    {answer : Except EngineError (Option String)} (before : Trail deeds engine) (host : Host)
    (files : Fields String) (offered : operation.IsOffered)
    (answered : operation.perform.onHost host files engine = (.ok answer, after)) :
    Trail (⟨engine, operation, after⟩ :: deeds) after

namespace Deed

/-- Whether a configuration was set. -/
def setsConfiguration (deed : Deed) : Bool :=
  match deed.operation with
  | .setConfiguration _ => true
  | .configure text =>
    match deed.before.source.configuration text with
    | .ok (.ok _) => true
    | _ => false
  | _ => false

/-- Whether an action was registered. -/
def registers (deed : Deed) : Bool :=
  match deed.operation with
  | .register _ _ => true
  | _ => false

/-- Whether something changed that scripts depend on: a configuration was set, an action registered, or
the mode or the document became another one. -/
def changes (deed : Deed) : Bool :=
  deed.setsConfiguration || deed.registers ||
    deed.after.workbench.mode != deed.before.workbench.mode ||
    deed.after.document != deed.before.document

/-- Whether the operation came by a script to run, a new one unless one was kept. -/
def obtains (deed : Deed) : Bool := deed.operation.runsRules deed.before && deed.before.hasScript

/-- Whether a script is left: nothing changed, and there was one or the operation came by one. -/
def keepsScript (deed : Deed) : Bool :=
  !deed.changes && (deed.obtains || deed.before.keepsScript)

end Deed

/-- Whether a script was built and nothing changed since that scripts depend on. -/
def keepsAfter : List Deed → Bool
  | [] => false
  | deed :: earlier => !deed.changes && (deed.obtains || keepsAfter earlier)

/-! ### The script -/

namespace Engine

open Session Monitor

variable {host : Host} {files : Fields String} {engine : Engine}

theorem UpToDate.hasScript_of_keepsScript (hu : engine.UpToDate) (h : engine.keepsScript = true) :
    engine.hasScript = true := by
  obtain ⟨script, hs⟩ := Option.isSome_iff_exists.1 h
  obtain ⟨compiled, hc, hcs⟩ := Option.bind_eq_some_iff.1 hs
  rw [hasScript, BareEngine.script, hu.text compiled hc]
  show ((Script.build _ _).mapError _).toOption.isSome = true
  rw [hu.script compiled script hc hcs]
  rfl

/-- What compiling the text leaves alone. -/
theorem compiledText_frame : (compiledText.onHost host files engine).2.monitor = engine.monitor ∧
    (compiledText.onHost host files engine).2.keepsScript = engine.keepsScript := by
  cases hc : engine.compiled with
  | some compiled =>
    rw [onHost_compiledText_of_some hc]
    exact ⟨rfl, rfl⟩
  | none =>
    rw [onHost_compiledText_of_none hc]
    cases engine.bare.text with
    | error err => exact ⟨rfl, rfl⟩
    | ok text =>
      refine ⟨rfl, ?_⟩
      rw [keepsScript, keepsScript, hc]
      rfl

/-- Preparing a script is not measured by itself, and a script is kept if one comes of it. -/
theorem prepare_frame (h : engine.keepsScript = false) :
    (prepare.onHost host files engine).2.monitor = engine.monitor ∧
      ∃ result, (prepare.onHost host files engine).1 = .ok result ∧
        (prepare.onHost host files engine).2.keepsScript = result.toOption.isSome := by
  obtain ⟨hmonitor, hkeeps⟩ := @compiledText_frame host files engine
  have htext : ∃ result, (compiledText.onHost host files engine).1 = .ok result := by
    cases hc : engine.compiled with
    | some compiled => exact ⟨_, by rw [onHost_compiledText_of_some hc]⟩
    | none => exact ⟨_, by rw [onHost_compiledText_of_none hc]⟩
  obtain ⟨result, hresult⟩ := htext
  generalize ho : compiledText.onHost host files engine = outcome at hmonitor hkeeps hresult
  obtain ⟨answer, after⟩ := outcome
  cases hresult
  dsimp only at hmonitor hkeeps
  simp only [prepare, onHost_bind, ho]
  cases result with
  | error err => exact ⟨hmonitor, _, rfl, hkeeps.trans h⟩
  | ok text =>
    simp only [onHost_bind, onHost_get, onHost_leave]
    cases (after.workbench.prepare text after.registry).1 with
    | ok script => exact ⟨hmonitor, _, rfl, rfl⟩
    | error reason => exact ⟨hmonitor, _, rfl, hkeeps.trans h⟩

/-- Building the script is measured, unless the script is kept. -/
theorem script_records (hu : engine.UpToDate) : ∃ after,
    script.onHost host files engine = (.ok engine.bare.script, after) ∧ after.UpToDate ∧
      after.bare = engine.bare ∧ after.keepsScript = engine.hasScript ∧
      Records (if engine.keepsScript then [] else [compilation]) engine.monitor after.monitor := by
  have hfollows : Follows host files script BareEngine.prepare := follows_script
  obtain ⟨hafter, hbare⟩ := hfollows engine hu
  change (Except.ok engine.bare.script, engine.bare) = _ at hbare
  obtain ⟨hanswer, hsame⟩ := Prod.mk.inj hbare
  refine ⟨_, Prod.ext hanswer.symm rfl, hafter, hsame.symm, ?_⟩
  cases hk : engine.keepsScript with
  | true =>
    obtain ⟨found, hfound⟩ := Option.isSome_iff_exists.1 hk
    have hkept : script.onHost host files engine = (.ok (.ok found), engine) := by
      simp [script, onHost_bind, hfound]
    rw [hkept]
    exact ⟨hk.trans (hu.hasScript_of_keepsScript hk).symm, Records.refl _⟩
  | false =>
    -- nothing is kept, so the script is built between a start and a stop
    have hnone : engine.compiled.bind (·.script) = none :=
      Option.isNone_iff_eq_none.1 (Option.isSome_eq_false_iff.1 hk)
    have hmeasured : script.onHost host files engine =
        (phase compilation prepare).onHost host files engine := by
      simp [script, onHost_bind, hnone]
    let started : Engine := { engine with monitor := engine.monitor.start compilation host.time }
    obtain ⟨hmonitor, result, hresult, hkeeps⟩ := @prepare_frame host files started hk
    rw [hmeasured, Follows.onHost_phase] at hanswer ⊢
    generalize prepare.onHost host files started = outcome at hmonitor hresult hkeeps hanswer ⊢
    obtain ⟨answer, after⟩ := outcome
    cases hresult
    cases hanswer
    refine ⟨hkeeps, ?_⟩
    show Records _ _ (after.monitor.stop _ _).1
    rw [hmonitor]
    exact records_stop_start _ _ _ _

/-! ### Runs -/

/-- A document that comes out changed drops the script. -/
theorem onHost_keep (text : String) (engine : Engine) :
    (keep text).onHost host files engine = (.ok (), if engine.document = text then engine else
      { engine with
        loaded := engine.loaded.map fun loaded => { loaded with document := text }
        compiled := none }) := by
  by_cases hd : engine.document = text <;> simp [keep, onHost_bind, hd]

/-- Keeping a document is not measured. The script stays if the document does. -/
theorem keep_frame (text : String) {engine : Engine} (hloaded : engine.loaded.isSome = true) :
    ∃ after, (keep text).onHost host files engine = (.ok (), after) ∧
      after.monitor = engine.monitor ∧ after.workbench.mode = engine.workbench.mode ∧
      after.keepsScript = (after.document == engine.document && engine.keepsScript) := by
  obtain ⟨loaded, hl⟩ := Option.isSome_iff_exists.1 hloaded
  rw [onHost_keep]
  refine ⟨_, rfl, ?_⟩
  split
  · exact ⟨rfl, rfl, by rw [beq_self_eq_true, Bool.true_and]⟩
  · rename_i hne
    refine ⟨rfl, rfl, ?_⟩
    have hdocument : document { engine with
        loaded := engine.loaded.map fun loaded => { loaded with document := text }
        compiled := none } = text := by
      rw [hl]
      rfl
    rw [hdocument, beq_eq_false_iff_ne.2 (Ne.symm hne)]
    rfl

/-- What is measured in the course of an operation: phases of the given labels, unless the operation is
broken off, which happens in the last one. -/
def Shows {α : Type} (labels : List String) (engine : Engine) : Except Fault α × Engine → Prop
  | (.ok _, after) => Records labels engine.monitor after.monitor
  | (.error _, after) => Adds labels.dropLast engine.monitor after.monitor

theorem shows_append {α : Type} {first second : List String} {engine middle : Engine}
    {outcome : Except Fault α × Engine} (h : Records first engine.monitor middle.monitor)
    (hsecond : Shows second middle outcome) (hne : second ≠ []) :
    Shows (first ++ second) engine outcome := by
  obtain ⟨_ | _, after⟩ := outcome
  · show Adds (first ++ second).dropLast _ _
    rw [List.dropLast_append_of_ne_nil hne]
    exact h.adds_append hsecond
  · exact h.append hsecond

theorem runPhases_ne_nil (hu : engine.UpToDate) : engine.runPhases ≠ [] := by
  rw [runPhases]
  cases hk : engine.keepsScript with
  | false => exact List.cons_ne_nil _ _
  | true =>
    rw [hu.hasScript_of_keepsScript hk]
    exact List.cons_ne_nil _ _

/-- What a run does once it has the script. -/
def runFrom (script : Script) (input : String) (keeps : Bool) :
    Session (Except EngineError String) := do
  match ← phase execution (runScript script input) with
  | .error err => return .error err
  | .ok text =>
    if keeps then keep text
    return .ok text

theorem run_eq (input : String) (keeps : Bool) : run input keeps = (do
    match ← script with
    | .error err => return .error err
    | .ok script => runFrom script input keeps) := rfl

/-- The execution of a script is measured. After it the script is kept if it was kept before and the
document is what it was. -/
theorem runFrom_shows (hloaded : engine.loaded.isSome = true) (script : Script) (input : String)
    (keeps : Bool) :
    Shows [execution] engine ((runFrom script input keeps).onHost host files engine) ∧
      ∀ result after, (runFrom script input keeps).onHost host files engine = (.ok result, after) →
        after.workbench.mode = engine.workbench.mode ∧
          after.keepsScript = (after.document == engine.document && engine.keepsScript) := by
  rw [runFrom, onHost_bind, Follows.onHost_phase, onHost_runScript]
  let measured : Engine := { engine with
    monitor := ((engine.monitor.start execution host.time).stop execution host.time).1 }
  have hmeasured : Records [execution] engine.monitor measured.monitor := records_stop_start _ _ _ _
  have hsame : measured.keepsScript =
      (measured.document == engine.document && engine.keepsScript) := by
    change engine.keepsScript = (engine.document == engine.document && engine.keepsScript)
    rw [beq_self_eq_true, Bool.true_and]
  rcases (script.execute input host).2 with fault | err | text
  · -- the measuring of an execution that is broken off has no end
    refine ⟨?_, fun result after h => by cases h⟩
    exact adds_nil (markers_start _ _ _)
  · refine ⟨hmeasured, fun result after h => ?_⟩
    cases h
    exact ⟨rfl, hsame⟩
  · cases keeps with
    | false =>
      refine ⟨hmeasured, fun result after h => ?_⟩
      cases h
      exact ⟨rfl, hsame⟩
    | true =>
      -- only keeping another document can drop the script
      obtain ⟨after, hkeep, hmonitor, hmode, hkeeps⟩ := @keep_frame host files text measured hloaded
      have houtcome : onHost host files (do keep text; return Except.ok text) measured =
          (.ok (Except.ok text : Except EngineError String), after) := by
        rw [onHost_bind, hkeep]
        rfl
      change Shows _ _ (onHost host files (do keep text; return Except.ok text) measured) ∧
        ∀ result found, onHost host files (do keep text; return Except.ok text) measured = _ → _
      rw [houtcome]
      refine ⟨?_, fun result found h => ?_⟩
      · show Records _ _ after.monitor
        rw [hmonitor]
        exact hmeasured
      · cases h
        exact ⟨hmode, hkeeps⟩

theorem runPhases_of_error {err : EngineError} (h : engine.bare.script = .error err) :
    engine.hasScript = false ∧
      engine.runPhases = if engine.keepsScript then [] else [compilation] := by
  have hhas : engine.hasScript = false := by rw [hasScript, h]; rfl
  refine ⟨hhas, ?_⟩
  rw [runPhases, hhas]
  exact List.append_nil _

theorem runPhases_of_ok {script : Script} (h : engine.bare.script = .ok script) :
    engine.runPhases = (if engine.keepsScript then [] else [compilation]) ++ [execution] := by
  rw [runPhases, hasScript, h]
  rfl

/-- Where there is a script, a configuration is loaded. -/
theorem isSome_loaded_of_script {script : Script} (h : engine.bare.script = .ok script) :
    engine.loaded.isSome = true := by
  cases hl : engine.loaded with
  | none =>
    rw [BareEngine.script, BareEngine.text, bare_loaded, hl] at h
    cases h
  | some loaded => rfl

/-- The phases of a run are measured. After it the script is kept if there is one and the document is
what it was. -/
theorem run_shows (hu : engine.UpToDate) (input : String) (keeps : Bool) :
    Shows engine.runPhases engine ((run input keeps).onHost host files engine) ∧
      ∀ result after, (run input keeps).onHost host files engine = (.ok result, after) →
        after.workbench.mode = engine.workbench.mode ∧
          after.keepsScript = (after.document == engine.document && engine.hasScript) := by
  obtain ⟨built, hscript, hbuilt, hbare, hkeeps, hrecords⟩ := @script_records host files engine hu
  have hmode : built.workbench.mode = engine.workbench.mode := congrArg BareEngine.mode hbare
  have hloaded : built.loaded = engine.loaded := congrArg BareEngine.loaded hbare
  have hdocument : built.document = engine.document := by rw [document, document, hloaded]
  rw [run_eq, onHost_bind, hscript]
  cases hs : engine.bare.script with
  | error err =>
    obtain ⟨hhas, hphases⟩ := runPhases_of_error hs
    rw [hphases]
    refine ⟨hrecords, fun result after h => ?_⟩
    cases h
    rw [hkeeps, hhas, Bool.and_false]
    exact ⟨hmode, rfl⟩
  | ok script =>
    have hsome : built.loaded.isSome = true := hloaded ▸ isSome_loaded_of_script hs
    obtain ⟨hshows, hafter⟩ := @runFrom_shows host files built hsome script input keeps
    rw [runPhases_of_ok hs]
    refine ⟨shows_append hrecords hshows (List.cons_ne_nil _ _), fun result after h => ?_⟩
    obtain ⟨hsame, hfresh⟩ := hafter result after h
    rw [hfresh, hkeeps, hdocument]
    exact ⟨hsame.trans hmode, rfl⟩

/-! ### Calls -/

theorem onHost_answer {α β : Type} (work : Session (Except EngineError α)) (f : α → β)
    (engine : Engine) : onHost host files (do return (← work).map f) engine =
      ((work.onHost host files engine).1.map (·.map f), (work.onHost host files engine).2) := by
  rw [onHost_bind]
  obtain ⟨_ | result, after⟩ := work.onHost host files engine <;> rfl

/-- Checking an input is measured and changes nothing else. -/
theorem onHost_check {α : Type} {loaded : Loaded} (h : engine.loaded = some loaded)
    (verify : List Parameter.Spec → Except Parameter.Rejection α) :
    (check verify).onHost host files engine =
      (.ok ((verify loaded.configuration.parameters).mapError .validation), { engine with
        monitor := ((engine.monitor.start validation host.time).stop validation host.time).1 }) := by
  obtain ⟨_, registry, source, workbench, monitor, compiled⟩ := engine
  cases h
  rw [check, onHost_bind, onHost_get]
  dsimp only
  rw [onHost_bind, Follows.onHost_phase]
  cases verify loaded.configuration.parameters <;> rfl

theorem onHost_check_of_unloaded {α : Type} (h : engine.loaded = none)
    (verify : List Parameter.Spec → Except Parameter.Rejection α) :
    (check verify).onHost host files engine = (.ok (.error .notConfigured), engine) := by
  simp [check, onHost_bind, h]

/-- The answer to a request. -/
def serve : Except EngineError Request → Session (Except EngineError String)
  | .ok request => run request.text request.keeps
  | .error err => return .error err

theorem runParameters_eq (parameters : Fields Value) :
    runParameters parameters = serve (Request.ofParameters parameters) := by
  unfold runParameters Request.ofParameters
  cases (Value.record parameters).toJson <;> rfl

/-- A call checks its input, unless that is not JSON, and goes on with its request. -/
theorem onHost_call {loaded : Loaded} (hl : engine.loaded = some loaded) {operation : Operation}
    {result : Except EngineError Request}
    (hrequest : operation.request loaded.configuration.parameters = some result) :
    ∃ monitor, Records (if operation.isUnchecked then [] else [validation]) engine.monitor monitor ∧
      operation.perform.onHost host files engine =
        (((serve result).onHost host files { engine with monitor }).1.map (·.map some),
          ((serve result).onHost host files { engine with monitor }).2) := by
  have hrecords := records_stop_start engine.monitor validation host.time host.time
  cases operation with
  | execute parameters =>
    refine ⟨_, hrecords, ?_⟩
    rw [Operation.perform, onHost_answer, execute, onHost_bind, onHost_check hl]
    rw [Operation.request] at hrequest
    cases hcheck : Parameter.validate parameters loaded.configuration.parameters with
    | ok _ =>
      rw [hcheck] at hrequest
      cases hrequest
      dsimp only [mapError_ok]
      rw [runParameters_eq]
    | error reason =>
      rw [hcheck] at hrequest
      cases hrequest
      rfl
  | executeStrings parameters =>
    refine ⟨_, hrecords, ?_⟩
    rw [Operation.perform, onHost_answer, executeStrings, onHost_bind, onHost_check hl]
    rw [Operation.request] at hrequest
    cases hcheck : Parameter.validateStrings parameters loaded.configuration.parameters with
    | ok values =>
      rw [hcheck] at hrequest
      cases hrequest
      dsimp only [mapError_ok]
      rw [runParameters_eq]
    | error reason =>
      rw [hcheck] at hrequest
      cases hrequest
      rfl
  | executeJson input =>
    rw [Operation.request] at hrequest
    rw [Operation.perform, onHost_answer, executeJson, Operation.isUnchecked]
    cases hread : Value.readJson? input with
    | none =>
      rw [hread] at hrequest
      cases hrequest
      -- a text that is not JSON is not checked
      exact ⟨_, Records.refl _, rfl⟩
    | some value =>
      rw [hread] at hrequest
      refine ⟨_, hrecords, ?_⟩
      dsimp only at hrequest ⊢
      rw [onHost_bind, onHost_check hl]
      cases hcheck : Parameter.validate (payload value) loaded.configuration.parameters with
      | ok _ =>
        rw [hcheck] at hrequest
        cases hrequest
        rfl
      | error reason =>
        rw [hcheck] at hrequest
        cases hrequest
        rfl
  | _ => cases hrequest

/-! ### Other operations -/

theorem onHost_silent {work : Session Unit} {after : Engine}
    (h : work.onHost host files engine = (.ok (), after)) :
    (silent work).onHost host files engine = (.ok (.ok none), after) := by
  rw [silent, onHost_bind, h]
  rfl

theorem onHost_setMode (mode : SecurityMode) (engine : Engine) :
    (setMode mode).onHost host files engine =
      (.ok (), if engine.workbench.mode = mode then engine else
        { engine with
          workbench := { mode }
          compiled := engine.compiled.map fun compiled => { compiled with script := none } }) := by
  by_cases hm : engine.workbench.mode = mode <;>
    simp [setMode, onHost_bind, Workbench.setMode, hm]

theorem keepsScript_map_none (engine : Engine) (workbench : Workbench) :
    keepsScript { engine with workbench, compiled := engine.compiled.map fun compiled =>
      { compiled with script := none } } = false := by
  rw [keepsScript]
  cases engine.compiled <;> rfl

/-- Compiling the text is measured, unless the text is kept. -/
theorem scriptText_frame :
    ∃ result after, scriptText.onHost host files engine = (.ok result, after) ∧
      Records (if engine.compiled.isNone then [compilation] else []) engine.monitor after.monitor ∧
      after.bare = engine.bare ∧ after.keepsScript = engine.keepsScript := by
  cases hc : engine.compiled with
  | some compiled =>
    refine ⟨.ok compiled.text, engine, ?_, Records.refl _, rfl, rfl⟩
    simp [scriptText, onHost_bind, hc, onHost_compiledText_of_some hc]
  | none =>
    have hmeasured : scriptText.onHost host files engine =
        (phase compilation compiledText).onHost host files engine := by
      simp [scriptText, onHost_bind, hc]
    let started : Engine := { engine with monitor := engine.monitor.start compilation host.time }
    have hstarted : started.compiled = none := hc
    rw [hmeasured, Follows.onHost_phase, onHost_compiledText_of_none hstarted]
    have hkeeps : engine.keepsScript = false := by
      rw [keepsScript, hc]
      rfl
    have hrecords := records_stop_start engine.monitor compilation host.time host.time
    cases started.bare.text with
    | ok text => exact ⟨_, _, rfl, hrecords, rfl, hkeeps.symm⟩
    | error err => exact ⟨_, _, rfl, hrecords, rfl, rfl⟩

theorem phases_of_call {operation : Operation} (hcall : operation.IsCall) (engine : Engine) :
    operation.phases engine = operation.callPhases engine := by
  cases operation with
  | execute parameters => rfl
  | executeStrings parameters => rfl
  | executeJson input => rfl
  | _ => exact hcall.elim

theorem runsRules_of_request {loaded : Loaded} (hl : engine.loaded = some loaded)
    {operation : Operation} {result : Except EngineError Request}
    (hrequest : operation.request loaded.configuration.parameters = some result) :
    operation.runsRules engine = result.toOption.isSome := by
  rw [Operation.runsRules, hl]
  dsimp only
  rw [hrequest]

end Engine

section

open Monitor Session Engine

variable {host : Host} {files : Fields String} {engine : Engine} {operation : Operation}

/-- An engine without a configuration has nothing to run, and it notices when it is about to build the
script of an input that is not checked. -/
theorem Engine.call_of_unloaded (hu : engine.UpToDate) (hl : engine.loaded = none)
    (hcall : operation.IsCall) : ∃ after,
      operation.perform.onHost host files engine = (.ok (.error .notConfigured), after) ∧
        Records (if operation.isUnchecked then [compilation] else []) engine.monitor after.monitor ∧
        after.bare = engine.bare ∧ after.keepsScript = engine.keepsScript := by
  have hscript : engine.bare.script = .error .notConfigured := by
    rw [BareEngine.script, BareEngine.text, bare_loaded, hl]
    rfl
  have hhas : engine.hasScript = false := by
    rw [hasScript, hscript]
    rfl
  have hkeeps : engine.keepsScript = false := by
    rw [Bool.eq_false_iff]
    exact fun h => Bool.false_ne_true (hhas.symm.trans (hu.hasScript_of_keepsScript h))
  cases operation with
  | execute parameters =>
    refine ⟨engine, ?_, Records.refl _, rfl, rfl⟩
    rw [Operation.perform, onHost_answer, execute, onHost_bind, onHost_check_of_unloaded hl]
    rfl
  | executeStrings parameters =>
    refine ⟨engine, ?_, Records.refl _, rfl, rfl⟩
    rw [Operation.perform, onHost_answer, executeStrings, onHost_bind, onHost_check_of_unloaded hl]
    rfl
  | executeJson input =>
    rw [Operation.perform, onHost_answer, executeJson, Operation.isUnchecked]
    cases hread : Value.readJson? input with
    | some value =>
      refine ⟨engine, ?_, Records.refl _, rfl, rfl⟩
      dsimp only
      rw [onHost_bind, onHost_check_of_unloaded hl]
      rfl
    | none =>
      -- the script is asked for, in vain, and asking for it is measured
      obtain ⟨after, hbuilt, -, hbare, hafter, hrecords⟩ := @script_records host files engine hu
      rw [hkeeps] at hrecords
      refine ⟨after, ?_, hrecords, hbare, hafter.trans (hhas.trans hkeeps.symm)⟩
      dsimp only
      rw [onHost_bind, onHost_remark]
      dsimp only
      rw [run, onHost_bind, hbuilt, hscript]
      rfl
  | _ => exact hcall.elim

/-- What a call on an engine with a configuration shows, and what becomes of the script. -/
theorem Engine.call_of_loaded (hu : engine.UpToDate) {loaded : Loaded}
    (hl : engine.loaded = some loaded) (hcall : operation.IsCall) :
    Shows (operation.phases engine) engine (operation.perform.onHost host files engine) ∧
      ∀ result after, operation.perform.onHost host files engine = (.ok result, after) →
        after.keepsScript = (⟨engine, operation, after⟩ : Deed).keepsScript := by
  obtain ⟨result, hrequest⟩ := BareEngine.exists_request hcall loaded.configuration.parameters
  obtain ⟨monitor, hrecords, houtcome⟩ :=
    @onHost_call host files engine loaded hl operation result hrequest
  have hphases : operation.phases engine = (if operation.isUnchecked then [] else [validation]) ++
      if result.toOption.isSome then engine.runPhases else [] := by
    rw [phases_of_call hcall, Operation.callPhases, runsRules_of_request hl hrequest, hl]
  let checked : Engine := { engine with monitor }
  have hchecked : checked.UpToDate := hu.of_eq rfl rfl rfl
  have hobtains (after : Engine) : (⟨engine, operation, after⟩ : Deed).obtains =
      (result.toOption.isSome && engine.hasScript) := by
    rw [Deed.obtains, runsRules_of_request hl hrequest]
  -- a call changes the document at most
  have hchanges (after : Engine) (hmode : after.workbench.mode = engine.workbench.mode) :
      (⟨engine, operation, after⟩ : Deed).changes = (after.document != engine.document) := by
    rw [Deed.changes, hmode, bne_self_eq_false]
    cases operation <;> first | rfl | exact hcall.elim
  rw [hphases]
  cases result with
  | error err =>
    change _ = (Except.ok (Except.error err), checked) at houtcome
    rw [houtcome]
    refine ⟨?_, fun result after h => ?_⟩
    · show Records (_ ++ []) _ _
      rw [List.append_nil]
      exact hrecords
    · cases h
      rw [Deed.keepsScript, hobtains, hchanges checked rfl]
      show engine.keepsScript = (!(engine.document != engine.document) && _)
      rw [bne_self_eq_false]
      rfl
  | ok request =>
    obtain ⟨hshows, hafter⟩ := @run_shows host files checked hchecked request.text request.keeps
    have hphased := shows_append hrecords hshows (runPhases_ne_nil hchecked)
    change _ = (((run request.text request.keeps).onHost host files checked).1.map _,
      ((run request.text request.keeps).onHost host files checked).2) at houtcome
    rw [houtcome]
    generalize (run request.text request.keeps).onHost host files checked = outcome at hphased hafter
    obtain ⟨fault | answer, after⟩ := outcome
    · exact ⟨hphased, fun result found h => by cases h⟩
    · refine ⟨hphased, fun result found h => ?_⟩
      cases h
      obtain ⟨hmode, hkeeps⟩ := hafter _ _ rfl
      rw [Deed.keepsScript, hobtains, hchanges after hmode, hkeeps]
      show (after.document == engine.document && engine.hasScript) =
        (!(after.document != engine.document) && (engine.hasScript || engine.keepsScript))
      cases hk : engine.keepsScript with
      | false => rw [Bool.or_false, bne, Bool.not_not]
      | true => rw [hu.hasScript_of_keepsScript hk, Bool.or_true, bne, Bool.not_not]

theorem shows_call (hu : engine.UpToDate) (hcall : operation.IsCall) :
    Shows (operation.phases engine) engine (operation.perform.onHost host files engine) := by
  cases hl : engine.loaded with
  | some loaded => exact (call_of_loaded hu hl hcall).1
  | none =>
    obtain ⟨after, hafter, hrecords, -⟩ := @call_of_unloaded host files engine _ hu hl hcall
    rw [phases_of_call hcall, Operation.callPhases, hl, hafter]
    exact hrecords

/-- What an operation shows. Changing the monitor itself is another matter. -/
theorem shows_perform (hu : engine.UpToDate) (h : ∀ change, operation ≠ .setMonitor change) :
    Shows (operation.phases engine) engine (operation.perform.onHost host files engine) := by
  cases operation with
  | setConfiguration configuration => exact Records.refl engine.monitor
  | configure text =>
    rw [Operation.perform, onHost_answer, onHost_configure]
    rcases engine.source.configuration text with fault | reason | configuration
    · exact adds_nil rfl
    · exact Records.refl engine.monitor
    · exact Records.refl engine.monitor
  | setSource source => exact Records.refl engine.monitor
  | register name action => exact Records.refl engine.monitor
  | setMode mode =>
    rw [Operation.perform, onHost_silent (onHost_setMode mode engine)]
    refine Records.of_eq ?_
    split <;> rfl
  | setMonitor change => exact absurd rfl (h change)
  | printMonitor => exact Records.refl engine.monitor
  | scriptText =>
    obtain ⟨result, after, hafter, hrecords, -⟩ := @scriptText_frame host files engine
    rw [Operation.perform, onHost_answer, hafter]
    exact hrecords
  | execute parameters => exact shows_call hu trivial
  | executeStrings parameters => exact shows_call hu trivial
  | executeJson input => exact shows_call hu trivial

/-- An operation that changes nothing and does not run the rules leaves a script alone. -/
theorem keepsScript_of_frame {after : Engine}
    (hmode : after.workbench.mode = engine.workbench.mode)
    (hdocument : after.document = engine.document)
    (hkeeps : after.keepsScript = engine.keepsScript)
    (hsets : (⟨engine, operation, after⟩ : Deed).setsConfiguration = false)
    (hregisters : (⟨engine, operation, after⟩ : Deed).registers = false)
    (hruns : operation.runsRules engine = false) :
    after.keepsScript = (⟨engine, operation, after⟩ : Deed).keepsScript := by
  have hchanges : (⟨engine, operation, after⟩ : Deed).changes = false := by
    rw [Deed.changes, hsets, hregisters, hmode, hdocument, bne_self_eq_false, bne_self_eq_false]
    rfl
  rw [Deed.keepsScript, hchanges, Deed.obtains, hruns, hkeeps]
  rfl

theorem runsRules_of_not_call (hcall : ¬ operation.IsCall) (engine : Engine) :
    operation.runsRules engine = false := by
  rw [Operation.runsRules]
  cases engine.loaded with
  | none => rfl
  | some loaded =>
    cases operation with
    | execute parameters => exact absurd trivial hcall
    | executeStrings parameters => exact absurd trivial hcall
    | executeJson input => exact absurd trivial hcall
    | _ => rfl

theorem keepsScript_of_changes {after : Engine} (hdropped : after.keepsScript = false)
    (hchanges : (⟨engine, operation, after⟩ : Deed).changes = true) :
    after.keepsScript = (⟨engine, operation, after⟩ : Deed).keepsScript := by
  rw [Deed.keepsScript, hchanges, hdropped]
  rfl

/-- A configuration is set if the text is read as one. -/
theorem setsConfiguration_configure {text : String}
    {read : Except SourceError Configuration}
    (h : engine.source.configuration text = .ok read) (after : Engine) :
    (⟨engine, .configure text, after⟩ : Deed).setsConfiguration = read.toOption.isSome := by
  rw [Deed.setsConfiguration]
  dsimp only
  rw [h]
  cases read <;> rfl

/-- A script is kept after an operation if nothing changed and it was obtained or kept before. -/
theorem keepsScript_perform (hu : engine.UpToDate) {answer : Except EngineError (Option String)}
    {after : Engine} (h : operation.perform.onHost host files engine = (.ok answer, after)) :
    after.keepsScript = (⟨engine, operation, after⟩ : Deed).keepsScript := by
  -- calls are the operations that may obtain a script; the others keep it or drop it
  have hcalls (hcall : operation.IsCall) :
      after.keepsScript = (⟨engine, operation, after⟩ : Deed).keepsScript := by
    cases hl : engine.loaded with
    | some loaded => exact (call_of_loaded hu hl hcall).2 _ _ h
    | none =>
      obtain ⟨found, hfound, -, hbare, hkeeps⟩ := @call_of_unloaded host files engine _ hu hl hcall
      cases hfound.symm.trans h
      refine keepsScript_of_frame (congrArg BareEngine.mode hbare)
        (congrArg BareEngine.document hbare) hkeeps ?_ ?_ (by rw [Operation.runsRules, hl])
      · cases operation <;> first | rfl | exact hcall.elim
      · cases operation <;> first | rfl | exact hcall.elim
  cases operation with
  | setConfiguration configuration =>
    cases h
    exact keepsScript_of_changes rfl rfl
  | configure text =>
    rw [Operation.perform, onHost_answer, onHost_configure] at h
    cases hread : engine.source.configuration text with
    | error fault =>
      rw [hread] at h
      cases h
    | ok read =>
      have hsets := setsConfiguration_configure hread
      rw [hread] at h
      cases read with
      | error reason =>
        cases h
        exact keepsScript_of_frame rfl rfl rfl (hsets _) rfl (runsRules_of_not_call id _)
      | ok configuration =>
        cases h
        refine keepsScript_of_changes rfl ?_
        rw [Deed.changes, hsets]
        rfl
  | setSource source =>
    cases h
    exact keepsScript_of_frame rfl rfl rfl rfl rfl (runsRules_of_not_call id _)
  | register name action =>
    cases h
    exact keepsScript_of_changes rfl rfl
  | setMode mode =>
    rw [Operation.perform, onHost_silent (onHost_setMode mode engine)] at h
    split at h
    · cases h
      exact keepsScript_of_frame rfl rfl rfl rfl rfl (runsRules_of_not_call id _)
    · rename_i hmode
      cases h
      refine keepsScript_of_changes (keepsScript_map_none _ _) ?_
      have hother : (mode != engine.workbench.mode) = true := bne_iff_ne.2 (Ne.symm hmode)
      rw [Deed.changes, hother]
      rfl
  | setMonitor change =>
    cases h
    exact keepsScript_of_frame rfl rfl rfl rfl rfl (runsRules_of_not_call id _)
  | printMonitor =>
    cases h
    exact keepsScript_of_frame rfl rfl rfl rfl rfl (runsRules_of_not_call id _)
  | scriptText =>
    obtain ⟨result, found, hfound, -, hbare, hkeeps⟩ := @scriptText_frame host files engine
    rw [Operation.perform, onHost_answer, hfound] at h
    cases h
    exact keepsScript_of_frame (congrArg BareEngine.mode hbare) (congrArg BareEngine.document hbare)
      hkeeps rfl rfl (runsRules_of_not_call id _)
  | execute parameters => exact hcalls trivial
  | executeStrings parameters => exact hcalls trivial
  | executeJson input => exact hcalls trivial

/-! ### Everything that was done -/

theorem running_perform (hu : engine.UpToDate) (hoffered : operation.IsOffered)
    (hrunning : engine.monitor.running = []) {answer : Except EngineError (Option String)}
    {after : Engine} (h : operation.perform.onHost host files engine = (.ok answer, after)) :
    after.monitor.running = [] := by
  by_cases hmonitor : ∃ change, operation = .setMonitor change
  · obtain ⟨change, rfl⟩ := hmonitor
    cases h
    rcases hoffered with rfl | rfl | rfl
    · exact hrunning
    · rfl
    · rfl
  · have hshows := @shows_perform host files engine operation hu
      fun change heq => hmonitor ⟨change, heq⟩
    rw [h] at hshows
    exact hshows.running.trans hrunning

theorem adds_perform (hu : engine.UpToDate) (hoffered : operation.IsOffered)
    (hreset : operation ≠ .setMonitor Monitor.reset) :
    Adds (match (operation.perform.onHost host files engine).1 with
        | .ok _ => operation.phases engine
        | .error _ => (operation.phases engine).dropLast)
      engine.monitor (operation.perform.onHost host files engine).2.monitor := by
  by_cases hmonitor : ∃ change, operation = .setMonitor change
  · obtain ⟨change, rfl⟩ := hmonitor
    rcases hoffered with rfl | rfl | rfl
    · exact adds_nil rfl
    · exact adds_nil rfl
    · exact absurd rfl hreset
  · have hshows := @shows_perform host files engine operation hu
      fun change heq => hmonitor ⟨change, heq⟩
    generalize operation.perform.onHost host files engine = outcome at hshows ⊢
    obtain ⟨fault | answer, after⟩ := outcome
    · exact hshows
    · exact hshows.adds

theorem Engine.Trail.reachable {deeds : List Deed} (h : Engine.Trail deeds engine) :
    engine.Reachable := by
  induction h with
  | fresh => exact .fresh
  | @perform deeds engine after operation answer _ host files _ answered ih =>
    have hafter := ih.perform host files operation
    rwa [answered] at hafter

/-- An engine that records and has a configuration without rules. -/
def recordingEngine : Engine :=
  (Engine.transcript {} [] [.setMonitor Monitor.enable, .setConfiguration {}] {}).2

end
end Rulebook
