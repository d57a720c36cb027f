import Rulebook.Proofs.Compilation.FirstLines
import Rulebook.Proofs.Engine.Failures

/-!
# Calls of an engine

What a call of an engine with a script comes to: a text that is not JSON is answered as it is;
otherwise the input and the document are read, and what the statements of the script make of these two
values decides the answer. The next document changes nothing but what the script starts from.
-/

namespace Rulebook

open Script Script.Eval Compilation

/-! ### Scripts of engines -/

namespace BareEngine

variable {bare : BareEngine} {loaded : Loaded} {script : Script}

/-- The script of an engine is the script text of what is loaded, built. -/
theorem script_eq_ok_iff (h : bare.loaded = some loaded) : bare.script = .ok script ↔
    badReference? bare.registry.contains 0 loaded.configuration.rules = none ∧
      Script.build bare.sandbox (scriptText loaded.configuration loaded.document) = .ok script := by
  have htext : bare.text =
      (compileWithDocument loaded.configuration loaded.document bare.registry).mapError .compile := by
    rw [BareEngine.text, h]
  rw [BareEngine.script, htext, compileWithDocument]
  cases badReference? bare.registry.contains 0 loaded.configuration.rules with
  | some err => exact iff_of_false (fun h => by cases h) (fun h => by cases h.1)
  | none =>
    generalize scriptText loaded.configuration loaded.document = text
    change Except.mapError EngineError.script (Script.build bare.sandbox text) = _ ↔ _
    cases Script.build bare.sandbox text with
    | ok built => simp
    | error err => simp

/-- What the script of an engine comes to. -/
theorem execute_of_script (h : bare.loaded = some loaded) (hscript : bare.script = .ok script)
    (henclosed : script.Enclosed) (input : String) (host : Host) :
    script.execute input host = entryResult (script.work host loaded.document input) input :=
  execute_of_build ((script_eq_ok_iff h).1 hscript).2 henclosed input host

theorem loaded_withDocument (h : bare.loaded = some loaded) (text : String) :
    (bare.withDocument text).loaded = some { loaded with document := text } := by
  rw [withDocument, h]
  rfl

/-- With another document, a script does the same behind its first lines. -/
theorem exists_script_withDocument (h : bare.loaded = some loaded) (hscript : bare.script = .ok script)
    (text : String) : ∃ next, (bare.withDocument text).script = .ok next ∧
      next.remainder = script.remainder ∧ (script.Enclosed → next.Enclosed) := by
  obtain ⟨hregistered, hbuild⟩ := (script_eq_ok_iff h).1 hscript
  obtain ⟨next, hnext, hsame⟩ := exists_build_with hbuild text
  exact ⟨next, (script_eq_ok_iff (loaded_withDocument h text)).2 ⟨hregistered, hnext⟩, hsame⟩

/-- Whether an engine has a configuration and a document with a certain outline, and knows the actions
of the configuration. -/
structure Runs (bare : BareEngine) (configuration : Configuration) (document : String)
    (o : Outline) : Prop where
  loaded : bare.loaded = some ⟨configuration, document⟩
  outline : configuration.outline (!bare.mode.isSecure) document = some o
  actions : ∀ rule ∈ configuration.rules, ∀ action ∈ rule.actions,
    IsActionName (!bare.mode.isSecure) action ∧ bare.registry.contains action = true

/-- The script of an engine runs like the outline. -/
theorem Runs.exists_script {configuration : Configuration} {document : String} {o : Outline}
    (h : bare.Runs configuration document o) : ∃ script,
    bare.script = .ok script ∧ script.Enclosed ∧ ∀ (input : String) (host : Host),
      script.execute input host = entryResult (o.run (script.setting host) (depth - 4)
        (Invocation.called (script.setting host) (depth - 4)) document input) input := by
  obtain ⟨hcompile, hbuild, hfunctions⟩ :=
    @build_of_outline configuration document bare.sandbox o h.outline h.actions
  refine ⟨_, (script_eq_ok_iff h.loaded).2 ⟨?_, hbuild⟩, Outline.enclosed hfunctions _ _ _,
    fun input host => Outline.call_script hfunctions _ input⟩
  unfold compileWithDocument at hcompile
  split at hcompile
  · cases hcompile
  · assumption

/-- What a run comes to. -/
theorem run_apply {script : Script} (h : bare.script = .ok script) (host : Host) (input : String)
    (keeps : Bool) : run host input keeps bare = match (script.execute input host).2 with
      | .error fault => (.error fault, bare)
      | .ok (.error err) => (.ok (.error (.script err)), bare)
      | .ok (.ok text) =>
        (.ok (.ok text), if keeps then bare.withDocument text else bare) := by
  have hprepare : prepare bare = (.ok (.ok script), bare) := by
    show ((.ok bare.script : Except Fault _), bare) = _
    rw [h]
  have hrun : runScript host script input bare =
      ((script.execute input host).2.map fun result => result.mapError .script, bare) := by
    have hpure : (ExceptT.mk (pure (script.execute input host).2) : BareSession _) bare =
      ((script.execute input host).2, bare) := rfl
    rw [runScript, BareSession.bind_apply, hpure]
    cases (script.execute input host).2 <;> rfl
  rw [run, BareSession.bind_apply, hprepare]
  dsimp only
  rw [BareSession.bind_apply, hrun]
  rcases (script.execute input host).2 with fault | err | text
  · rfl
  · rfl
  · cases keeps <;> rfl

/-- Without a script nothing is run. -/
theorem run_of_error {err : EngineError} (h : bare.script = .error err) (host : Host)
    (input : String) (keeps : Bool) : run host input keeps bare = (.ok (.error err), bare) := by
  have hprepare : prepare bare = (.ok (.error err), bare) := by
    show ((.ok bare.script : Except Fault _), bare) = _
    rw [h]
  rw [run, BareSession.bind_apply, hprepare]
  rfl

/-- A run that does not keep its result changes nothing. -/
theorem still_run (host : Host) (input : String) : Still (run host input false) := by
  intro bare
  cases hscript : bare.script with
  | error err => rw [run_of_error hscript]
  | ok script =>
    rw [run_apply hscript]
    rcases (script.execute input host).2 with fault | err | text
    · rfl
    · rfl
    · rfl

end BareEngine

/-! ### Requests -/

/-- What a call runs the rules on. -/
structure Request where
  text : String
  /-- Whether the result becomes the document. -/
  keeps : Bool

/-- The request for parameters. -/
def Request.ofParameters (parameters : Fields Value) : Except EngineError Request :=
  match (Value.record parameters).toJson with
  | some json => .ok ⟨json.compact, true⟩
  | none => .error .document

/-- What an operation runs the rules on under some declarations, if it is a call. -/
def Operation.request (specs : List Parameter.Spec) :
    Operation → Option (Except EngineError Request)
  | execute parameters =>
    match Parameter.validate parameters specs with
    | .ok () => some (Request.ofParameters parameters)
    | .error reason => some (.error (.validation reason))
  | executeStrings parameters =>
    match Parameter.validateStrings parameters specs with
    | .ok values => some (Request.ofParameters values)
    | .error reason => some (.error (.validation reason))
  | executeJson input =>
    match Value.readJson? input with
    | none => some (.ok ⟨input, false⟩)
    | some value =>
      match Parameter.validate (Engine.payload value) specs with
      | .ok () => some (.ok ⟨input, true⟩)
      | .error reason => some (.error (.validation reason))
  | _ => none

/-- The parameters of a call, as values. -/
def Operation.parameters? (specs : List Parameter.Spec) : Operation → Option (Fields Value)
  | execute parameters => some parameters
  | executeStrings parameters => (Parameter.validateStrings parameters specs).toOption
  | _ => none

theorem Request.exists_toJson {parameters : Fields Value} {request : Request}
    (h : ofParameters parameters = .ok request) :
    ∃ json, (Value.record parameters).toJson = some json ∧ request = ⟨json.compact, true⟩ := by
  unfold ofParameters at h
  split at h
  · rename_i json hjson
    cases h
    exact ⟨json, hjson, rfl⟩
  · cases h

namespace Operation

variable {specs : List Parameter.Spec} {input : String}

/-- A text that is not JSON is not checked. -/
theorem request_of_unreadable (h : Value.readJson? input = none) :
    (executeJson input).request specs = some (.ok ⟨input, false⟩) := by
  rw [request, h]

/-- A JSON payload is checked. -/
theorem request_of_readable {value : Value} (h : Value.readJson? input = some value) :
    (executeJson input).request specs =
      some (((Parameter.validate (Engine.payload value) specs).mapError .validation).map
        fun () => ⟨input, true⟩) := by
  rw [request, h]
  dsimp only
  cases Parameter.validate (Engine.payload value) specs <;> rfl

/-- A request is the text of the JSON form of parameters, or a payload as it is. -/
theorem request_cases {operation : Operation} {request : Request}
    (h : operation.request specs = some (.ok request)) :
    (∃ parameters json, operation.parameters? specs = some parameters ∧
      (Value.record parameters).toJson = some json ∧ request = ⟨json.compact, true⟩) ∨
      ∃ input, operation = .executeJson input ∧ request = ⟨input, (Value.readJson? input).isSome⟩ := by
  cases operation with
  | execute parameters =>
    rw [Operation.request] at h
    split at h
    · obtain ⟨json, hjson, hrequest⟩ := Request.exists_toJson (Option.some.inj h)
      exact .inl ⟨parameters, json, rfl, hjson, hrequest⟩
    · cases h
  | executeStrings parameters =>
    rw [Operation.request] at h
    split at h
    · rename_i values hvalues
      obtain ⟨json, hjson, hrequest⟩ := Request.exists_toJson (Option.some.inj h)
      exact .inl ⟨values, json, by rw [parameters?, hvalues]; rfl, hjson, hrequest⟩
    · cases h
  | executeJson input =>
    refine .inr ⟨input, rfl, ?_⟩
    cases hread : Value.readJson? input with
    | none =>
      rw [request_of_unreadable hread] at h
      cases h
      rfl
    | some value =>
      rw [request_of_readable hread] at h
      cases hcheck : Parameter.validate (Engine.payload value) specs with
      | ok _ =>
        rw [hcheck] at h
        cases h
        rfl
      | error reason =>
        rw [hcheck] at h
        cases h
  | _ => cases h

end Operation

namespace BareEngine

variable {bare : BareEngine} {loaded : Loaded}

theorem check_apply {α : Type} (h : bare.loaded = some loaded)
    (run : List Parameter.Spec → Except Parameter.Rejection α) : check run bare =
      (.ok ((run loaded.configuration.parameters).mapError .validation), bare) := by
  obtain ⟨_, registry, source, mode⟩ := bare
  cases h
  rfl

/-- The answer to a request. -/
def serve (host : Host) : Except EngineError Request → BareSession (Except EngineError String)
  | .ok request => run host request.text request.keeps
  | .error err => return .error err

theorem serve_ok (host : Host) (request : Request) (bare : BareEngine) :
    serve host (.ok request) bare = run host request.text request.keeps bare := rfl

theorem runParameters_eq (host : Host) (parameters : Fields Value) :
    runParameters host parameters = serve host (Request.ofParameters parameters) := by
  unfold runParameters Request.ofParameters
  cases (Value.record parameters).toJson <;> rfl

variable {result : Except EngineError Request}

theorem execute_of_request (h : bare.loaded = some loaded) (host : Host) {parameters : Fields Value}
    (hrequest : (Operation.execute parameters).request loaded.configuration.parameters =
      some result) : execute host parameters bare = serve host result bare := by
  rw [execute, BareSession.bind_apply, check_apply h]
  rw [Operation.request] at hrequest
  cases hcheck : Parameter.validate parameters loaded.configuration.parameters with
  | ok _ =>
    rw [hcheck] at hrequest
    cases hrequest
    exact congrFun (runParameters_eq host parameters) bare
  | error reason =>
    rw [hcheck] at hrequest
    cases hrequest
    rfl

theorem executeStrings_of_request (h : bare.loaded = some loaded) (host : Host)
    {parameters : Fields String}
    (hrequest : (Operation.executeStrings parameters).request loaded.configuration.parameters =
      some result) : executeStrings host parameters bare = serve host result bare := by
  rw [executeStrings, BareSession.bind_apply, check_apply h]
  rw [Operation.request] at hrequest
  cases hcheck : Parameter.validateStrings parameters loaded.configuration.parameters with
  | ok values =>
    rw [hcheck] at hrequest
    cases hrequest
    exact congrFun (runParameters_eq host values) bare
  | error reason =>
    rw [hcheck] at hrequest
    cases hrequest
    rfl

theorem executeJson_of_request (h : bare.loaded = some loaded) (host : Host) {input : String}
    (hrequest : (Operation.executeJson input).request loaded.configuration.parameters =
      some result) : executeJson host input bare = serve host result bare := by
  unfold executeJson
  cases hread : Value.readJson? input with
  | none =>
    rw [Operation.request_of_unreadable hread] at hrequest
    cases hrequest
    rfl
  | some value =>
    rw [Operation.request_of_readable hread] at hrequest
    dsimp only
    rw [BareSession.bind_apply, check_apply h]
    cases hcheck : Parameter.validate (Engine.payload value) loaded.configuration.parameters with
    | ok _ =>
      rw [hcheck] at hrequest
      cases hrequest
      rfl
    | error reason =>
      rw [hcheck] at hrequest
      cases hrequest
      rfl

/-- A call is the answer to its request. -/
theorem performBare_of_request (h : bare.loaded = some loaded) (host : Host)
    {operation : Operation}
    (hrequest : operation.request loaded.configuration.parameters = some result) :
    operation.performBare host bare =
      ((do return (← serve host result).map some) : BareSession _) bare := by
  cases operation with
  | execute parameters =>
    rw [Operation.performBare, BareSession.bind_apply, BareSession.bind_apply,
      execute_of_request h host hrequest]
  | executeStrings parameters =>
    rw [Operation.performBare, BareSession.bind_apply, BareSession.bind_apply,
      executeStrings_of_request h host hrequest]
  | executeJson input =>
    rw [Operation.performBare, BareSession.bind_apply, BareSession.bind_apply,
      executeJson_of_request h host hrequest]
  | _ => cases hrequest

/-- What a call with a request comes to. -/
theorem performBare_apply {script : Script} (h : bare.loaded = some loaded)
    (hscript : bare.script = .ok script) (host : Host) {operation : Operation} {request : Request}
    (hrequest : operation.request loaded.configuration.parameters = some (.ok request)) :
    operation.performBare host bare = match (script.execute request.text host).2 with
      | .error fault => (.error fault, bare)
      | .ok (.error err) => (.ok (.error (.script err)), bare)
      | .ok (.ok text) =>
        (.ok (.ok (some text)), if request.keeps then bare.withDocument text else bare) := by
  rw [performBare_of_request h host hrequest, BareSession.bind_apply, serve_ok, run_apply hscript]
  rcases (script.execute request.text host).2 with fault | err | text
  · rfl
  · rfl
  · rfl

end BareEngine
end Rulebook
