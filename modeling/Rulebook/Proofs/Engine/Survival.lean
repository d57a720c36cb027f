import Rulebook.Proofs.Engine.Calls
import Rulebook.Proofs.Json.Documents

/-!
# The document from call to call

Between two calls the document is a text. The next call starts from the value that the last one ended
with, unless that value is nested too deeply to be read again: `document_survives`.
-/

namespace Rulebook

open Script Script.Eval Compilation

/-! ### What the document becomes -/

theorem isSome_readJson? (text : String) :
    (Value.readJson? text).isSome = (Datum.readJson? text).isSome := by
  rw [Value.readJson?, Datum.readJson?, Option.isSome_map, Option.isSome_map]

/-- The result of a run on JSON becomes the document. -/
theorem Operation.keeps_of_readable {operation : Operation} {specs : List Parameter.Spec}
    {request : Request} (h : operation.request specs = some (.ok request))
    (hread : (Datum.readJson? request.text).isSome = true) : request.keeps = true := by
  rcases request_cases h with ⟨parameters, json, -, -, rfl⟩ | ⟨input, rfl, rfl⟩
  · rfl
  · rwa [← isSome_readJson?] at hread

namespace BareEngine

variable {bare : BareEngine} {loaded : Loaded}

theorem document_withDocument (h : bare.loaded = some loaded) (text : String) :
    (bare.withDocument text).document = text := by
  rw [document, withDocument, h]
  rfl

/-- A successful call has run the script. Its text is the next document, if the call keeps its result. -/
theorem exists_script_of_success (h : bare.loaded = some loaded) {host : Host} {operation : Operation}
    {request : Request} (hrequest : operation.request loaded.configuration.parameters =
      some (.ok request)) (hkeeps : request.keeps = true) {text : String} {after : BareEngine}
    (hsuccess : operation.performBare host bare = (.ok (.ok (some text)), after)) :
    ∃ script, bare.script = .ok script ∧ after = bare.withDocument text := by
  cases hscript : bare.script with
  | error err =>
    rw [performBare_of_request h host hrequest, BareSession.bind_apply, serve_ok,
      run_of_error hscript] at hsuccess
    cases hsuccess
  | ok script =>
    refine ⟨script, rfl, ?_⟩
    rw [performBare_apply h hscript host hrequest, hkeeps] at hsuccess
    rcases hresult : (script.execute request.text host).2 with fault | err | result
    · rw [hresult] at hsuccess
      cases hsuccess
    · rw [hresult] at hsuccess
      cases hsuccess
    · rw [hresult] at hsuccess
      cases hsuccess
      rfl

/-- A script that is built from the text of a document reads it in its first lines and starts from the
document, unless that is nested too deeply. -/
theorem execute_from {d : Datum} (hd : d.IsDocument) (h : bare.loaded = some loaded) {script : Script}
    (hscript : (bare.withDocument d.toJson.compact).script = .ok script) (henclosed : script.Enclosed)
    (host : Host) {input : String} {value : Datum} (hvalue : Datum.readJson? input = some value) :
    if d.toJson.depth ≤ Json.maxDepth then
      script.execute input host = entryResult (script.runFrom host value d) input
    else ∃ err, (script.execute input host).2 = .ok (.error (.eval err)) := by
  have htext := Datum.readJson?_toJson hd
  rw [execute_of_script (loaded_withDocument h d.toJson.compact) hscript henclosed,
    Script.work_of_some hvalue]
  split
  · rename_i hdepth
    rw [if_pos hdepth] at htext
    rw [Script.proceed_of_some htext]
  · rename_i hdepth
    rw [if_neg hdepth] at htext
    exact entryResult_of_unreadable htext value input

end BareEngine

/-! ### Configurations without statements and rules -/

/-- Whether a configuration has neither statements nor rules. -/
def Configuration.IsEmpty (configuration : Configuration) : Prop :=
  configuration.before = [] ∧ configuration.rules = [] ∧ configuration.after = []

theorem exists_outline_of_isEmpty {configuration : Configuration} (h : configuration.IsEmpty)
    (evaluates : Bool) (document : String) : ∃ answer functions,
      configuration.outline evaluates document = some ⟨[], [], [], answer, functions⟩ := by
  obtain ⟨hbefore, hrules, hafter⟩ := h
  rw [Configuration.outline, hbefore, hrules, hafter]
  exact ⟨_, _, rfl⟩

/-- Without statements and rules the answer is the text of the document. -/
theorem entryResult_of_isEmpty (setting : Setting) (depth : Nat) (invoke : Invocation → Eval Datum)
    (answer : Position) (functions : List Function) {document input : String} {value d : Datum}
    (hinput : Datum.readJson? input = some value) (hdocument : Datum.readJson? document = some d)
    (h : d.IsDocument) :
    (entryResult (Outline.run setting depth invoke ⟨[], [], [], answer, functions⟩ document input)
      input).2 = .ok (.ok d.toJson.compact) := by
  rw [Outline.run, hinput]
  dsimp only
  rw [parse_of_some hdocument]
  cases d with
  | shared cell => cases h
  | _ => rfl

/-- Whether an operation is a call whose text, if the parameters are right, is JSON. -/
def Operation.HandsJson (specs : List Parameter.Spec) (operation : Operation) : Prop :=
  ∃ result, operation.request specs = some result ∧
    ∀ request, result = .ok request → (Datum.readJson? request.text).isSome = true

namespace BareEngine

/-- Whether an engine has a configuration without statements and rules, and a document that denotes a
certain value. -/
structure Rests (bare : BareEngine) (configuration : Configuration) (d : Datum) : Prop where
  loaded : ∃ document, bare.loaded = some ⟨configuration, document⟩ ∧
    Datum.readJson? document = some d
  isEmpty : configuration.IsEmpty

variable {bare : BareEngine} {configuration : Configuration} {d : Datum}

/-- A call of an engine at rest fails, or answers with the text of the document. -/
theorem Rests.performBare (h : bare.Rests configuration d) (hd : d.IsDocument) (host : Host)
    {operation : Operation} (hjson : operation.HandsJson configuration.parameters) :
    (operation.performBare host bare).2.Rests configuration d ∧
      (failed (operation.performBare host bare).1 = true ∨
        (operation.performBare host bare).1 = .ok (.ok (some d.toJson.compact)) ∧
          (operation.performBare host bare).2.document = d.toJson.compact) := by
  obtain ⟨⟨document, hloaded, hdocument⟩, hempty⟩ := h
  obtain ⟨result, hrequest, hresult⟩ := hjson
  cases result with
  | error err =>
    have hanswer : operation.performBare host bare = (.ok (.error err), bare) := by
      rw [performBare_of_request hloaded host hrequest]
      rfl
    rw [hanswer]
    exact ⟨⟨⟨document, hloaded, hdocument⟩, hempty⟩, .inl rfl⟩
  | ok request =>
    have hread := hresult request rfl
    obtain ⟨value, hvalue⟩ := Option.isSome_iff_exists.1 hread
    obtain ⟨answer, functions, houtline⟩ :=
      exists_outline_of_isEmpty hempty (!bare.mode.isSecure) document
    have hruns : bare.Runs configuration document ⟨[], [], [], answer, functions⟩ := by
      refine ⟨hloaded, houtline, ?_⟩
      rw [hempty.2.1]
      intro rule hrule
      cases hrule
    obtain ⟨script, hscript, -, hexecute⟩ := hruns.exists_script
    have htext : (script.execute request.text host).2 = .ok (.ok d.toJson.compact) := by
      rw [hexecute]
      exact entryResult_of_isEmpty _ _ _ _ _ hvalue hdocument hd
    have hanswer : operation.performBare host bare =
        (.ok (.ok (some d.toJson.compact)), bare.withDocument d.toJson.compact) := by
      rw [performBare_apply hloaded hscript host hrequest, htext,
        Operation.keeps_of_readable hrequest hread]
      rfl
    rw [hanswer]
    exact ⟨⟨⟨d.toJson.compact, loaded_withDocument hloaded _,
      Datum.readJson?_toJson_of_readJson? hdocument hd⟩, hempty⟩,
      .inr ⟨rfl, document_withDocument hloaded _⟩⟩

theorem Rests.transcript (h : bare.Rests configuration d) (hd : d.IsDocument) (host : Host)
    {calls : List Operation} (hcalls : ∀ call ∈ calls, call.HandsJson configuration.parameters) :
    ∀ entry ∈ (transcript host calls bare).1,
      failed entry.1 = true ∨ entry = (.ok (.ok (some d.toJson.compact)), d.toJson.compact) := by
  induction calls generalizing bare with
  | nil =>
    intro entry hentry
    cases hentry
  | cons call rest ih =>
    obtain ⟨hrests, hanswer⟩ := h.performBare hd host (hcalls call (.head _))
    intro entry hentry
    rcases List.mem_cons.1 hentry with rfl | hentry
    · rcases hanswer with hfailed | ⟨hanswer, hdocument⟩
      · exact .inl hfailed
      · exact .inr (Prod.ext hanswer hdocument)
    · exact ih hrests (fun c hc => hcalls c (.tail _ hc)) entry hentry

end BareEngine

variable (host : Host) (files : Fields String)

/-- **The document from call to call.** The text of a document denotes the document unless it is nested
too deeply. If the answer of a call is the text of a document, the next call has a script with the same
statements, which start from exactly this document, or cannot read it if it is nested too deeply.
Without statements and rules, all successful calls on JSON answer with the same text. -/
theorem document_survives (before : List Operation) {d : Datum} (hd : d.IsDocument) :
    let text := d.toJson.compact
    let engine := (Engine.transcript host files before {}).2
    (Datum.readJson? text = if d.toJson.depth ≤ Json.maxDepth then some d else none) ∧
    (∀ (loaded : Loaded) (operation : Operation) (request : Request),
      engine.loaded = some loaded →
      operation.request loaded.configuration.parameters = some (.ok request) →
      request.keeps = true →
      let outcome := operation.perform.onHost host files engine
      outcome.1 = .ok (.ok (some text)) → outcome.2.document = text ∧
        ∃ script next, engine.bare.script = .ok script ∧ outcome.2.bare.script = .ok next ∧
          next.remainder = script.remainder ∧
          (script.Enclosed → ∀ (host : Host) (input : String) (value : Datum),
            Datum.readJson? input = some value →
              if d.toJson.depth ≤ Json.maxDepth then
                next.execute input host = entryResult (next.runFrom host value d) input
              else ∃ err, (next.execute input host).2 = .ok (.error (.eval err)))) ∧
    ∀ (loaded : Loaded) (calls : List Operation), engine.loaded = some loaded →
      loaded.configuration.IsEmpty → Datum.readJson? loaded.document = some d →
      (∀ call ∈ calls, call.HandsJson loaded.configuration.parameters) →
      ∀ entry ∈ (Engine.transcript host files calls engine).1,
        failed entry.1 = true ∨ entry = (.ok (.ok (some text)), text) := by
  intro text engine
  have hu : engine.UpToDate := Engine.upToDate_transcript host files before
  refine ⟨Datum.readJson?_toJson hd, ?_, ?_⟩
  · intro loaded operation request hloaded hrequest hkeeps outcome hanswer
    obtain ⟨-, hbare⟩ := hu.perform host files operation
    rw [show (operation.perform.onHost host files engine).1 = .ok (.ok (some text)) from hanswer]
      at hbare
    obtain ⟨script, hscript, hafter⟩ :=
      BareEngine.exists_script_of_success hloaded hrequest hkeeps hbare
    obtain ⟨next, hnext, hremainder, henclosed⟩ :=
      BareEngine.exists_script_withDocument hloaded hscript text
    refine ⟨?_, script, next, hscript, ?_, hremainder, fun h host input value hvalue => ?_⟩
    · rw [← Engine.bare_document]
      exact hafter ▸ BareEngine.document_withDocument hloaded text
    · exact hafter ▸ hnext
    · exact BareEngine.execute_from hd hloaded hnext (henclosed h) host hvalue
  · intro loaded calls hloaded hempty hdocument hcalls
    obtain ⟨-, hbare⟩ := transcript_of_upToDate host files calls hu
    have hrests : engine.bare.Rests loaded.configuration d :=
      ⟨⟨loaded.document, hloaded, hdocument⟩, hempty⟩
    have := hrests.transcript hd host hcalls
    rwa [hbare] at this

/-- A document with a quote in a key stays as it is, call after call. -/
theorem document_survives_of_quote :
    let d : Datum := .map [("\"", .list [.int 1, .unit])]
    let engine := (Engine.transcript {} [] [.setConfiguration { document := d.toJson.compact }] {}).2
    d.IsDocument ∧ Datum.readJson? d.toJson.compact = some d ∧
      ∀ entry ∈ (Engine.transcript {} [] [.executeJson "[]", .execute []] engine).1,
        failed entry.1 = true ∨ entry = (.ok (.ok (some d.toJson.compact)), d.toJson.compact) := by
  intro d engine
  have hd : d.IsDocument := ⟨by simp, ⟨trivial, trivial, trivial⟩, trivial⟩
  obtain ⟨hread, -, hrest⟩ := document_survives {} []
    [.setConfiguration { document := d.toJson.compact }] hd
  have hdepth : d.toJson.depth ≤ Json.maxDepth := by
    show 2 ≤ 127
    decide
  rw [if_pos hdepth] at hread
  refine ⟨hd, hread, ?_⟩
  refine hrest ⟨{ document := d.toJson.compact }, d.toJson.compact⟩ [.executeJson "[]", .execute []]
    rfl ⟨rfl, rfl, rfl⟩ hread ?_
  intro call hcall
  rcases List.mem_cons.1 hcall with rfl | hcall
  · have hjson : (Datum.readJson? "[]").isSome = true := rfl
    refine ⟨.ok ⟨"[]", true⟩, rfl, fun request hrequest => ?_⟩
    cases hrequest
    exact hjson
  · cases List.mem_singleton.1 hcall
    have hjson : (Datum.readJson? "\x7b\x7d").isSome = true := rfl
    refine ⟨.ok ⟨"\x7b\x7d", true⟩, rfl, fun request hrequest => ?_⟩
    cases hrequest
    exact hjson

end Rulebook
