import Mathlib
import Rulebook.Proofs.Compilation.Inputs
import Rulebook.Proofs.Engine.Closure
import Rulebook.Proofs.Json.Rearranged
import Rulebook.Proofs.Parameter.Orders

/-!
# The order of parameters

The parameters of a call are enumerated in some order when they are checked and when the text is written
that the script is given. The checks do not depend on this order. The text does, and a script can tell
by looking at it under its name `input_json`; so can the caller if the parameters are nested so deeply
that the text is handed back. Apart from that the order does not show: `order_does_not_show`.
-/

namespace Rulebook

open Script Compilation

/-- Calls with the same parameters, enumerated in orders that need not be the same. -/
inductive Operation.Reordered (specs : List Parameter.Spec) : Operation → Operation → Prop where
  | values {parameters parameters' : Fields Value}
    (rearranged : Value.Rearranged (.record parameters) (.record parameters')) :
    Reordered specs (execute parameters) (execute parameters')
  | texts {parameters parameters' : Fields String} (names : parameters.names.Nodup)
    (perm : parameters.Perm parameters') :
    Reordered specs (executeStrings parameters) (executeStrings parameters')
  /-- The values that texts are read as may be enumerated in another order, too. -/
  | readTexts {parameters : Fields String} {values values' : Fields Value}
    (accepted : Parameter.validateStrings parameters specs = .ok values)
    (rearranged : Value.Rearranged (.record values) (.record values')) :
    Reordered specs (executeStrings parameters) (execute values')

/-! ### Requests -/

/-- Results that are the same error, or the texts of JSON forms that scripts read as the same value, the
first one the form of certain parameters. -/
inductive Request.SameReading (parameters : Fields Value) :
    Except EngineError Request → Except EngineError Request → Prop where
  | error (err : EngineError) : SameReading parameters (.error err) (.error err)
  | ok {json json' : Json} (form : (Value.record parameters).toJson = some json)
    (reading : Datum.readJson? json.compact = Datum.readJson? json'.compact) :
    SameReading parameters (.ok ⟨json.compact, true⟩) (.ok ⟨json'.compact, true⟩)

theorem Request.sameReading_ofParameters {parameters parameters' : Fields Value}
    (h : Value.Rearranged (.record parameters) (.record parameters')) :
    SameReading parameters (ofParameters parameters) (ofParameters parameters') := by
  have hrel := Value.readJson?_of_rearranged h
  unfold ofParameters
  generalize hjson : (Value.record parameters).toJson = found at hrel ⊢
  generalize (Value.record parameters').toJson = found' at hrel ⊢
  cases hrel with
  | none => exact .error _
  | some h => exact .ok hjson h.2

namespace Operation

variable {specs : List Parameter.Spec} {operation operation' : Operation}

/-- The requests of calls with the same parameters are the same error or have the same reading. -/
theorem Reordered.request (h : operation.Reordered specs operation') :
    (∃ err, operation.request specs = some (.error err) ∧
      operation'.request specs = some (.error err)) ∨
    ∃ parameters result result', operation.parameters? specs = some parameters ∧
      operation.request specs = some result ∧ operation'.request specs = some result' ∧
      Request.SameReading parameters result result' := by
  cases h with
  | @values parameters parameters' rearranged =>
    rw [Operation.request, Operation.request, rearranged.validate_eq specs]
    cases Parameter.validate parameters' specs with
    | error reason => exact .inl ⟨_, rfl, rfl⟩
    | ok _ => exact .inr ⟨_, _, _, rfl, rfl, rfl, Request.sameReading_ofParameters rearranged⟩
  | @texts parameters parameters' names perm =>
    have hverdict := Parameter.sameVerdict_validateStrings perm names specs
    rw [Operation.request, Operation.request, parameters?]
    generalize hresult : Parameter.validateStrings parameters specs = result at hverdict ⊢
    generalize Parameter.validateStrings parameters' specs = result' at hverdict ⊢
    cases hverdict with
    | error reason => exact .inl ⟨_, rfl, rfl⟩
    | @ok values values' perm =>
      have hnames : values.names.Nodup := by
        obtain ⟨-, rfl⟩ := Parameter.verdict_eq_ok (Parameter.validateStrings_eq_ok_iff.1 hresult).1
        exact (Parameter.names_coerceAll_sublist parameters specs).nodup names
      exact .inr ⟨_, _, _, rfl, rfl, rfl, Request.sameReading_ofParameters (.of_perm perm hnames)⟩
  | @readTexts parameters values values' accepted rearranged =>
    have hvalid : Parameter.validate values' specs = .ok () :=
      (rearranged.validate_eq specs).symm.trans (Parameter.validateStrings_eq_ok_iff.1 accepted).2
    rw [Operation.request, Operation.request, parameters?, accepted, hvalid]
    exact .inr ⟨_, _, _, rfl, rfl, rfl, Request.sameReading_ofParameters rearranged⟩

end Operation

/-! ### Calls -/

/-- Whether the parameters of a call, if it has any, are nested so that scripts can read them. -/
def Operation.Shallow (specs : List Parameter.Spec) (operation : Operation) : Prop :=
  ∀ parameters ∈ operation.parameters? specs, ∀ json ∈ (Value.record parameters).toJson,
    json.depth ≤ Json.maxDepth

instance (specs : List Parameter.Spec) (operation : Operation) :
    Decidable (operation.Shallow specs) :=
  inferInstanceAs (Decidable (∀ parameters ∈ operation.parameters? specs,
    ∀ json ∈ (Value.record parameters).toJson, json.depth ≤ Json.maxDepth))

namespace BareEngine

variable {bare : BareEngine} {operation operation' : Operation}

/-- Whether a call that comes to run the rules has parameters that scripts can read, and a script that
spares their text. -/
def SparesText (bare : BareEngine) (operation : Operation) : Prop :=
  ∀ loaded script request, bare.loaded = some loaded → bare.script = .ok script →
    operation.request loaded.configuration.parameters = some (.ok request) →
    operation.Shallow loaded.configuration.parameters ∧ script.SparesText

/-- A call of a configuration whose statements and conditions spare the text of the input. -/
theorem sparesText_of_outline {loaded : Loaded} {o : Outline} (hloaded : bare.loaded = some loaded)
    (houtline : loaded.configuration.outline (!bare.mode.isSecure) loaded.document = some o)
    (hactions : ∀ rule ∈ loaded.configuration.rules, ∀ action ∈ rule.actions,
      IsActionName (!bare.mode.isSecure) action ∧ bare.registry.contains action = true)
    (hspares : Stmt.allSpare "input_json" (Stmt.kept o.inner) = true)
    (hshallow : operation.Shallow loaded.configuration.parameters) : bare.SparesText operation := by
  intro found script request hfound hscript _
  cases hloaded.symm.trans hfound
  refine ⟨hshallow, ?_⟩
  obtain ⟨text, built, htext, hbuilt, hsparing⟩ :=
    @Outline.exists_script_of_spares _ _ bare.sandbox _ houtline hactions hspares
  have hsame : bare.script = .ok built := by
    have htext : bare.text = .ok text := by
      change compileWithDocument _ _ bare.registry = _ at htext
      rw [BareEngine.text, hloaded]
      dsimp only
      rw [htext, mapError_ok]
    rw [BareEngine.script, htext]
    change Except.mapError _ (Script.build bare.sandbox text) = _
    rw [hbuilt, mapError_ok]
  cases hscript.symm.trans hsame
  exact hsparing

/-- Calls with the same parameters come to the same if the script spares their text. -/
theorem performBare_of_reordered {loaded : Loaded} (hloaded : bare.loaded = some loaded)
    (h : operation.Reordered loaded.configuration.parameters operation')
    (hspares : bare.SparesText operation) (host : Host) :
    operation'.performBare host bare = operation.performBare host bare := by
  rcases h.request with ⟨err, hrequest, hrequest'⟩ |
    ⟨parameters, result, result', hparameters, hrequest, hrequest', hsame⟩
  · rw [performBare_of_request hloaded host hrequest, performBare_of_request hloaded host hrequest']
  · cases hsame with
    | error err =>
      rw [performBare_of_request hloaded host hrequest, performBare_of_request hloaded host hrequest']
    | @ok json json' form reading =>
      cases hscript : bare.script with
      | error err =>
        rw [performBare_of_request hloaded host hrequest,
          performBare_of_request hloaded host hrequest', BareSession.bind_apply,
          BareSession.bind_apply, serve_ok, serve_ok, run_of_error hscript, run_of_error hscript]
      | ok script =>
        obtain ⟨hshallow, hscriptSpares⟩ := hspares loaded script _ hloaded hscript hrequest
        obtain ⟨value, hvalue⟩ := Option.isSome_iff_exists.1 <|
          (Json.isSome_read?_compact (Value.writable_toJson form (Value.doublesReadBack _))).2
            (hshallow parameters hparameters json form)
        have hexecute : script.execute json'.compact host = script.execute json.compact host :=
          Script.execute_of_sparesText hscriptSpares hvalue (reading ▸ hvalue) host
        rw [performBare_apply hloaded hscript host hrequest,
          performBare_apply hloaded hscript host hrequest']
        dsimp only
        rw [hexecute]

end BareEngine

/-- **The order of parameters does not show.** In whatever order the texts of parameters are gone
through, they are read as the same values, or rejected for the same violations in the same order. And
whatever was done with an engine before, calls with the same parameters have the same answer and leave
the same document, provided that the script spares the text of the parameters and can read it. -/
theorem order_does_not_show (specs : List Parameter.Spec) (engine : Engine) (host : Host)
    (files : Fields String) :
    (∀ parameters parameters' : Fields String, parameters.names.Nodup → parameters.Perm parameters' →
      Parameter.SameVerdict (Parameter.coerce parameters specs)
          (Parameter.coerce parameters' specs) ∧
        Parameter.SameVerdict (Parameter.validateStrings parameters specs)
          (Parameter.validateStrings parameters' specs)) ∧
    ∀ (loaded : Loaded) (operation operation' : Operation),
      engine.Reachable → engine.loaded = some loaded →
      operation.Reordered loaded.configuration.parameters operation' →
      engine.bare.SparesText operation →
      (operation'.perform.onHost host files engine).1 =
          (operation.perform.onHost host files engine).1 ∧
        (operation'.perform.onHost host files engine).2.document =
          (operation.perform.onHost host files engine).2.document := by
  constructor
  · intro parameters parameters' hnames hperm
    exact ⟨Parameter.sameVerdict_coerce hperm hnames specs,
      Parameter.sameVerdict_validateStrings hperm hnames specs⟩
  · intro loaded operation operation' hreachable hloaded hreordered hspares
    have hu := hreachable.upToDate
    have hsame := @BareEngine.performBare_of_reordered engine.bare _ _ _ hloaded hreordered hspares host
    rw [(hu.perform host files operation).2, (hu.perform host files operation').2] at hsame
    obtain ⟨hanswer, hafter⟩ := Prod.mk.inj hsame
    refine ⟨hanswer, ?_⟩
    rw [← Engine.bare_document, hafter, Engine.bare_document]

/-- A configuration that keeps one of the parameters. -/
def keepingConfiguration : Configuration := { before := ["document.a = input.a"] }

/-- An engine that has just got this configuration. -/
def keepingEngine : Engine :=
  (Engine.transcript {} [] [.setConfiguration keepingConfiguration] {}).2

/-- The texts of two parameters. -/
def twoTexts : Fields String := [("a", "1"), ("b", "2")]

/-- The texts of two parameters in either order, one of which is kept. -/
theorem order_does_not_show_of_two :
    Parameter.SameVerdict (Parameter.coerce twoTexts []) (Parameter.coerce twoTexts.reverse []) ∧
      ((Operation.executeStrings twoTexts.reverse).perform.onHost {} [] keepingEngine).1 =
        ((Operation.executeStrings twoTexts).perform.onHost {} [] keepingEngine).1 ∧
      ((Operation.executeStrings twoTexts.reverse).perform.onHost {} [] keepingEngine).2.document =
        ((Operation.executeStrings twoTexts).perform.onHost {} [] keepingEngine).2.document := by
  have hnames : twoTexts.names.Nodup := by decide
  have hperm : twoTexts.Perm twoTexts.reverse := (List.reverse_perm _).symm
  have hreachable : keepingEngine.Reachable := Engine.Reachable.fresh.transcript _ _ _
  let loaded : Loaded := ⟨keepingConfiguration, keepingConfiguration.document⟩
  have hloaded : keepingEngine.loaded = some loaded := rfl
  have hany : (keepingConfiguration.outline false keepingConfiguration.document).any
      (fun o => Stmt.allSpare "input_json" (Stmt.kept o.inner)) = true := by decide +kernel
  obtain ⟨o, houtline, hkept⟩ := (Option.any_eq_true _ _).1 hany
  have hspares : keepingEngine.bare.SparesText (.executeStrings twoTexts) :=
    BareEngine.sparesText_of_outline hloaded houtline (fun _ h => by cases h) hkept
      (by decide +kernel)
  obtain ⟨hverdict, hcall⟩ := order_does_not_show [] keepingEngine {} []
  exact ⟨(hverdict twoTexts twoTexts.reverse hnames hperm).1,
    hcall loaded _ _ hreachable hloaded (.texts hnames hperm) hspares⟩

end Rulebook
