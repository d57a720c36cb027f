import Rulebook.Proofs.Engine.Caches

/-!
# Failed operations leave no trace

An operation that answers with an error, or that a fault breaks off, may have filled caches on its
way, but what the engine was told stays as it was (`harmless_performBare`). Since caches do not
show, everything that is done with the engine afterwards comes out as if the operation had never
been tried (`transcript_after_failure`).
-/

namespace Rulebook

/-- Whether an outcome is an error or a fault. -/
def failed {α : Type} : Except Fault (Except EngineError α) → Bool
  | .ok (.ok _) => false
  | _ => true

section

variable {α β : Type}

/-- An operation that leaves bare engines as they are. -/
def Still (work : BareSession α) : Prop := ∀ bare, (work bare).2 = bare

/-- An operation that leaves bare engines as they are when it fails. -/
def Harmless (work : BareSession (Except EngineError α)) : Prop :=
  ∀ bare, failed (work bare).1 → (work bare).2 = bare

theorem harmless_pure (outcome : Except EngineError α) :
    Harmless (pure outcome : BareSession (Except EngineError α)) := fun _ _ => rfl

/-- What follows an operation that changes nothing decides what a failure leaves behind. -/
theorem Still.bind {work : BareSession α} {next : α → BareSession (Except EngineError β)}
    (first : Still work) (second : ∀ a, Harmless (next a)) : Harmless (work >>= next) := by
  intro bare hf
  rw [BareSession.bind_apply] at hf ⊢
  have hs := first bare
  generalize work bare = outcome at hf hs ⊢
  obtain ⟨result, after⟩ := outcome
  simp only at hs
  subst hs
  cases result with
  | error fault => rfl
  | ok a => exact second a after hf

/-- An operation that cannot answer with an error does no harm. -/
theorem harmless_silent {work : BareSession Unit} (h : ∀ bare, (work bare).1 = .ok ()) :
    Harmless (BareSession.silent work) := by
  intro bare hf
  have answer : ((BareSession.silent work) bare).1 = .ok (.ok none) := by
    have hw := h bare
    rw [BareSession.silent, BareSession.bind_apply]
    generalize work bare = outcome at hw
    obtain ⟨result, after⟩ := outcome
    simp only at hw
    subst hw
    rfl
  rw [answer] at hf
  cases hf

/-- Answering with something else than an operation does not change when it fails. -/
theorem Harmless.map {work : BareSession (Except EngineError α)} (h : Harmless work) (f : α → β) :
    Harmless (do return (← work).map f) := by
  intro bare hf
  have hw := h bare
  rw [BareSession.bind_apply] at hf ⊢
  generalize work bare = outcome at hw hf ⊢
  obtain ⟨_ | _ | a, after⟩ := outcome
  · exact hw rfl
  · exact hw rfl
  · cases hf

end

namespace BareEngine

variable (host : Host)

theorem still_prepare : Still prepare := fun _ => rfl

theorem still_runScript (script : Script) (input : String) : Still (runScript host script input) := by
  intro bare
  unfold runScript
  cases (script.execute input host).2 <;> rfl

theorem still_check {α : Type} (run : List Parameter.Spec → Except Parameter.Rejection α) :
    Still (check run) := by
  rintro ⟨loaded, registry, source, mode⟩
  cases loaded <;> rfl

/-- The document is replaced only after the script has come to a text. -/
theorem harmless_run (input : String) (keeps : Bool) : Harmless (run host input keeps) := by
  refine still_prepare.bind fun result => ?_
  cases result with
  | error err => exact harmless_pure _
  | ok script =>
    refine (still_runScript host script input).bind fun outcome => ?_
    cases outcome with
    | error err => exact harmless_pure _
    | ok text =>
      intro bare hf
      cases keeps <;> cases hf

theorem harmless_runParameters (parameters : Fields Value) :
    Harmless (runParameters host parameters) := by
  unfold runParameters
  cases (Value.record parameters).toJson with
  | none => exact harmless_pure _
  | some json => exact harmless_run host _ _

theorem harmless_execute (parameters : Fields Value) : Harmless (execute host parameters) := by
  refine (still_check _).bind fun verdict => ?_
  cases verdict with
  | error err => exact harmless_pure _
  | ok _ => exact harmless_runParameters host parameters

theorem harmless_executeStrings (parameters : Fields String) :
    Harmless (executeStrings host parameters) := by
  refine (still_check _).bind fun verdict => ?_
  cases verdict with
  | error err => exact harmless_pure _
  | ok values => exact harmless_runParameters host values

theorem harmless_executeJson (input : String) : Harmless (executeJson host input) := by
  unfold executeJson
  cases Value.readJson? input with
  | none => exact harmless_run host _ _
  | some value =>
    refine (still_check _).bind fun verdict => ?_
    cases verdict with
    | error err => exact harmless_pure _
    | ok _ => exact harmless_run host _ _

/-- What loading a configuration comes to. -/
theorem configure_apply (text : String) (bare : BareEngine) :
    configure text bare = match bare.source.configuration text with
      | .ok (.ok configuration) =>
        (.ok (.ok ()), { bare with loaded := some ⟨configuration, configuration.document⟩ })
      | .ok (.error reason) => (.ok (.error (.source reason)), bare)
      | .error fault => (.error fault, bare) := by
  have read : (ExceptT.mk (pure (bare.source.configuration text)) : BareSession _) bare =
    (bare.source.configuration text, bare) := rfl
  change ((ExceptT.mk (pure (bare.source.configuration text)) : BareSession _) >>= _) bare = _
  rw [BareSession.bind_apply, read]
  rcases bare.source.configuration text with fault | (reason | configuration) <;> rfl

/-- A configuration is loaded only after it was read. -/
theorem harmless_configure (text : String) : Harmless (configure text) := by
  intro bare hf
  rw [configure_apply] at hf ⊢
  cases hs : bare.source.configuration text with
  | error fault => rfl
  | ok result =>
    cases result with
    | error reason => rfl
    | ok configuration => simp [hs, failed] at hf

end BareEngine

/-- An operation that fails leaves what a bare engine was told as it was. -/
theorem harmless_performBare (host : Host) (operation : Operation) :
    Harmless (operation.performBare host) := by
  cases operation with
  | setConfiguration configuration => exact harmless_silent fun _ => rfl
  | configure text => exact (BareEngine.harmless_configure text).map _
  | setSource source => exact harmless_silent fun _ => rfl
  | register name action => exact harmless_silent fun _ => rfl
  | setMode mode => exact harmless_silent fun _ => rfl
  | setMonitor change => exact harmless_silent fun _ => rfl
  | printMonitor => exact harmless_silent fun _ => rfl
  | scriptText => exact fun _ _ => rfl
  | execute parameters => exact (BareEngine.harmless_execute host parameters).map _
  | executeStrings parameters => exact (BareEngine.harmless_executeStrings host parameters).map _
  | executeJson input => exact (BareEngine.harmless_executeJson host input).map _

variable (host : Host) (files : Fields String)

/-- **Failed operations leave no trace.** Let an operation on an engine, whatever was done with the
engine before, answer with an error or break off with a fault. Then the configuration, the document,
the registry, the source format and the mode are what they were, and all further operations answer
and leave documents as they would have done without it. -/
theorem transcript_after_failure (before : List Operation) (operation : Operation)
    (hf : failed (operation.perform.onHost host files
      (Engine.transcript host files before {}).2).1) :
    let engine := (Engine.transcript host files before {}).2
    let after := (operation.perform.onHost host files engine).2
    after.bare = engine.bare ∧ after.document = engine.document ∧
      ∀ later, (Engine.transcript host files later after).1 =
          (Engine.transcript host files later engine).1 ∧
        (Engine.transcript host files later after).2.bare =
          (Engine.transcript host files later engine).2.bare := by
  intro engine after
  have hu : engine.UpToDate := Engine.upToDate_transcript host files before
  obtain ⟨hafter, hbare⟩ := hu.perform host files operation
  have same : after.bare = engine.bare := by
    have h := harmless_performBare host operation engine.bare
    rw [hbare] at h
    exact h hf
  refine ⟨same, ?_, fun later => ?_⟩
  · rw [← Engine.bare_document, same, Engine.bare_document]
  · obtain ⟨-, hwith⟩ := transcript_of_upToDate host files later hafter
    obtain ⟨-, hwithout⟩ := transcript_of_upToDate host files later hu
    rw [show (operation.perform.onHost host files engine).2.bare = engine.bare from same,
      hwithout] at hwith
    exact ⟨(congrArg Prod.fst hwith).symm, (congrArg Prod.snd hwith).symm⟩

/-- An engine whose only rule refers to an action that nobody registered fails, and goes on as if it
had not been asked. -/
theorem transcript_after_missing_action :
    let engine := (Engine.transcript {} []
      [.setConfiguration { rules := [{ condition := "true", actions := ["missing"] }] }] {}).2
    let outcome := (Operation.execute []).perform.onHost {} [] engine
    failed outcome.1 ∧ outcome.2.bare = engine.bare ∧ outcome.2.document = engine.document ∧
      ∀ later, (Engine.transcript {} [] later outcome.2).1 =
          (Engine.transcript {} [] later engine).1 ∧
        (Engine.transcript {} [] later outcome.2).2.bare =
          (Engine.transcript {} [] later engine).2.bare :=
  ⟨rfl, transcript_after_failure {} [] _ _ rfl⟩

end Rulebook
