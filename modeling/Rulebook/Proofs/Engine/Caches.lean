import Rulebook.Proofs.Engine.Bare

/-!
# The caches of an engine do not show

An engine keeps a sandbox, the script text and the script, and drops each of them when something
changes that it depends on. `Engine.UpToDate` says what the caches hold if they hold anything: what a
bare engine would compute at the moment. Every operation keeps an engine up to date and answers as
the bare engine does (`follows_perform`), so that whole lists of operations have the same answers and
the same documents (`transcript_eq_bare`).
-/

namespace Rulebook

/-- What an engine was told, without its caches and its monitor. -/
def Engine.bare (engine : Engine) : BareEngine :=
  ⟨engine.loaded, engine.registry, engine.source, engine.workbench.mode⟩

@[simp] theorem Engine.bare_loaded (engine : Engine) : engine.bare.loaded = engine.loaded := rfl

@[simp] theorem Engine.bare_registry (engine : Engine) :
    engine.bare.registry = engine.registry := rfl

@[simp] theorem Engine.bare_source (engine : Engine) : engine.bare.source = engine.source := rfl

@[simp] theorem Engine.bare_document (engine : Engine) :
    engine.bare.document = engine.document := rfl

/-- The caches of an engine hold what a bare engine computes at the moment. -/
structure Engine.UpToDate (engine : Engine) : Prop where
  /-- The sandbox has the current mode and exactly the registered actions. -/
  sandbox : ∀ sandbox, engine.workbench.sandbox = some sandbox → sandbox = engine.bare.sandbox
  /-- The text is what compiling afresh gives. -/
  text : ∀ compiled, engine.compiled = some compiled → engine.bare.text = .ok compiled.text
  /-- The script was built from that text in such a sandbox. -/
  script : ∀ compiled script, engine.compiled = some compiled → compiled.script = some script →
    Script.build engine.bare.sandbox compiled.text = .ok script

namespace Engine

/-- A fresh engine has no caches. -/
theorem upToDate_default : UpToDate {} where
  sandbox := fun _ h => by simp at h
  text := fun _ h => by simp at h
  script := fun _ _ h => by simp at h

/-- Only what an engine was told and its caches decide whether it is up to date. -/
theorem UpToDate.of_eq {engine after : Engine} (h : engine.UpToDate)
    (bare : after.bare = engine.bare) (sandbox : after.workbench.sandbox = engine.workbench.sandbox)
    (compiled : after.compiled = engine.compiled) : after.UpToDate := by
  constructor
  · intro found hf
    rw [bare]
    exact h.sandbox found (sandbox ▸ hf)
  · intro found hf
    rw [bare]
    exact h.text found (compiled ▸ hf)
  · intro found script hf hs
    rw [bare]
    exact h.script found script (compiled ▸ hf) hs

/-- An engine that has no script text is up to date as soon as its sandbox is. -/
theorem UpToDate.of_compiled_none {engine : Engine} (compiled : engine.compiled = none)
    (sandbox : ∀ sandbox, engine.workbench.sandbox = some sandbox →
      sandbox = engine.bare.sandbox) : engine.UpToDate :=
  ⟨sandbox, fun _ h => by simp [compiled] at h, fun _ _ h => by simp [compiled] at h⟩

end Engine

/-! ### Operations that follow those of a bare engine -/

section

variable {α β : Type} (host : Host) (files : Fields String)

/-- An operation keeps engines up to date, and does to them what another operation does to the bare
engine. -/
def Follows (work : Session α) (bare : BareSession α) : Prop :=
  ∀ engine : Engine, engine.UpToDate →
    (work.onHost host files engine).2.UpToDate ∧
      bare engine.bare = ((work.onHost host files engine).1, (work.onHost host files engine).2.bare)

variable {host files}

namespace Follows

theorem pure (a : α) : Follows host files (Pure.pure a) (Pure.pure a) :=
  fun _ h => ⟨h, rfl⟩

/-- Operations follow one after the other; a fault breaks off both. -/
theorem bind {work : Session α} {next : α → Session β} {bare : BareSession α}
    {bareNext : α → BareSession β} (first : Follows host files work bare)
    (second : ∀ a, Follows host files (next a) (bareNext a)) :
    Follows host files (work >>= next) (bare >>= bareNext) := by
  intro engine h
  obtain ⟨hafter, hbare⟩ := first engine h
  rw [BareSession.bind_apply, hbare, Session.onHost_bind]
  generalize work.onHost host files engine = outcome at hafter
  obtain ⟨result, after⟩ := outcome
  cases result with
  | error fault => exact ⟨hafter, rfl⟩
  | ok a => exact second a after hafter

theorem ofResult (result : Except Fault α) :
    Follows host files (Session.ofResult result) (ExceptT.mk (Pure.pure result)) :=
  fun _ h => ⟨h, rfl⟩

/-- What only looks at an engine can be done with the engine at hand. -/
theorem get {next : Engine → Session α} {bareNext : BareEngine → BareSession α}
    (h : ∀ engine : Engine, engine.UpToDate →
      ((next engine).onHost host files engine).2.UpToDate ∧
        bareNext engine.bare engine.bare =
          (((next engine).onHost host files engine).1,
            ((next engine).onHost host files engine).2.bare)) :
    Follows host files (MonadState.get >>= next) (MonadState.get >>= bareNext) := by
  intro engine hu
  rw [Session.onHost_bind]
  exact h engine hu

/-- Remarks in the log do not count. -/
theorem remark (text : String) {next : Unit → Session α} {bare : BareSession α}
    (h : Follows host files (next ()) bare) :
    Follows host files (Session.remark text >>= next) bare := by
  intro engine hu
  rw [Session.onHost_bind, Session.onHost_remark]
  exact h engine hu

/-- A measured operation is the operation on an engine whose monitor was started. -/
theorem onHost_phase (label : String) (work : Session α) (engine : Engine) :
    Session.onHost host files (Session.phase label work) engine =
      match work.onHost host files
        { engine with monitor := engine.monitor.start label host.time } with
      | (.ok a, after) =>
        (.ok a, { after with monitor := (after.monitor.stop label host.time).1 })
      | (.error fault, after) => (.error fault, after) := by
  simp only [Session.phase, Session.onHost_bind, Session.onHost_host, Session.onHost_modify]
  rcases work.onHost host files _ with ⟨_ | a, after⟩ <;> rfl

/-- Measuring an operation does not count. -/
theorem phase (label : String) {work : Session α} {bare : BareSession α}
    (h : Follows host files work bare) :
    Follows host files (Session.phase label work) bare := by
  intro engine hu
  let started : Engine := { engine with monitor := engine.monitor.start label host.time }
  have hs : started.UpToDate := hu.of_eq rfl rfl rfl
  obtain ⟨hafter, hbare⟩ := h started hs
  rw [onHost_phase, show engine.bare = started.bare from rfl, hbare]
  change _ ∧ _
  generalize work.onHost host files started = outcome at hafter
  obtain ⟨result, after⟩ := outcome
  cases result with
  | error fault => exact ⟨hafter, rfl⟩
  | ok a => exact ⟨hafter.of_eq rfl rfl rfl, rfl⟩

end Follows

namespace Engine

open Session

/-! ### Configurations, actions and modes -/

theorem follows_setConfiguration (configuration : Configuration) :
    Follows host files (setConfiguration configuration)
      (BareEngine.setConfiguration configuration) := by
  refine Follows.remark _ fun engine hu => ⟨?_, rfl⟩
  exact UpToDate.of_compiled_none rfl hu.sandbox

theorem follows_configure (text : String) :
    Follows host files (configure text) (BareEngine.configure text) := by
  refine Follows.get fun engine hu => ?_
  refine Follows.bind (Follows.ofResult _) (fun result => ?_) engine hu
  cases result with
  | error reason => exact Follows.pure _
  | ok configuration => exact Follows.bind (follows_setConfiguration configuration) fun _ => Follows.pure _

theorem follows_setSource (source : Source) :
    Follows host files (setSource source) (modify fun bare => { bare with source }) :=
  fun _ hu => ⟨⟨hu.sandbox, hu.text, hu.script⟩, rfl⟩

/-- A new action makes the sandbox and the script out of date; both are dropped. -/
theorem follows_register (name : String) (action : Action) :
    Follows host files (register name action)
      (modify fun bare => { bare with registry := (bare.registry.register name action).1 }) :=
  fun _ _ => ⟨UpToDate.of_compiled_none rfl (fun _ h => by cases h), rfl⟩

/-- Another mode makes the sandbox and the script out of date, but not the text. -/
theorem follows_setMode (mode : SecurityMode) :
    Follows host files (setMode mode) (modify fun bare => { bare with mode }) := by
  intro engine hu
  by_cases hm : engine.workbench.mode = mode
  · have same : (setMode mode).onHost host files engine = (.ok (), engine) := by
      simp [setMode, onHost_bind, Workbench.setMode, hm]
    rw [same]
    subst hm
    exact ⟨hu, rfl⟩
  · have changed : (setMode mode).onHost host files engine = (.ok (), { engine with
        workbench := { mode }
        compiled := engine.compiled.map fun compiled => { compiled with script := none } }) := by
      simp [setMode, onHost_bind, Workbench.setMode, hm]
    rw [changed]
    refine ⟨⟨fun _ h => (by cases h), fun compiled h => ?_, fun compiled script h hs => ?_⟩, rfl⟩
    · obtain ⟨old, hold, rfl⟩ := Option.map_eq_some_iff.1 h
      exact hu.text old hold
    · obtain ⟨old, hold, rfl⟩ := Option.map_eq_some_iff.1 h
      cases hs

theorem follows_setMonitor (change : Monitor → Monitor) :
    Follows host files (setMonitor change) (pure ()) :=
  fun _ hu => ⟨⟨hu.sandbox, hu.text, hu.script⟩, rfl⟩

/-! ### Scripts -/

/-- Without a script text, the text is compiled, and kept if there is one. -/
theorem onHost_compiledText_of_none {engine : Engine} (hc : engine.compiled = none) :
    compiledText.onHost host files engine =
      (.ok engine.bare.text, match engine.bare.text with
        | .ok text => { engine with compiled := some { text } }
        | .error _ => engine) := by
  cases hl : engine.loaded with
  | none => simp [compiledText, onHost_bind, hc, hl, BareEngine.text]
  | some loaded =>
    cases ht : compileWithDocument loaded.configuration loaded.document engine.registry <;>
      simp [compiledText, onHost_bind, hc, hl, ht, BareEngine.text]

theorem onHost_compiledText_of_some {engine : Engine} {compiled : Compiled}
    (hc : engine.compiled = some compiled) :
    compiledText.onHost host files engine = (.ok (.ok compiled.text), engine) := by
  simp [compiledText, onHost_bind, hc]

/-- The script text is the one that compiling afresh gives. -/
theorem follows_compiledText :
    Follows host files compiledText (do return (← get).text) := by
  intro engine hu
  show _ ∧ (Except.ok engine.bare.text, engine.bare) = _
  cases hc : engine.compiled with
  | some compiled =>
    rw [onHost_compiledText_of_some hc, hu.text compiled hc]
    exact ⟨hu, rfl⟩
  | none =>
    rw [onHost_compiledText_of_none hc]
    cases ht : engine.bare.text with
    | error err => exact ⟨hu, rfl⟩
    | ok text =>
      refine ⟨⟨hu.sandbox, fun compiled h => ?_, fun compiled script h hs => ?_⟩, rfl⟩
      · cases h
        exact ht
      · cases h
        cases hs

/-- Whether compiling the text is measured does not count. -/
theorem follows_scriptText :
    Follows host files scriptText (do return (← get).text) := by
  intro engine hu
  cases hc : engine.compiled with
  | some compiled =>
    have direct : scriptText.onHost host files engine = compiledText.onHost host files engine := by
      simp [scriptText, onHost_bind, hc]
    rw [direct]
    exact follows_compiledText engine hu
  | none =>
    have measured : scriptText.onHost host files engine =
        (phase Monitor.compilation compiledText).onHost host files engine := by
      simp [scriptText, onHost_bind, hc]
    rw [measured]
    exact Follows.phase _ follows_compiledText engine hu

/-- The sandbox on the workbench of an engine that is up to date is a fresh one. -/
theorem UpToDate.setUp {engine : Engine} (hu : engine.UpToDate) :
    (engine.workbench.setUp engine.registry).1 = engine.bare.sandbox := by
  unfold Workbench.setUp
  split
  · next sandbox hs => exact hu.sandbox sandbox hs
  · rfl

/-- Building a script puts a sandbox on the workbench, and it is a fresh one. -/
theorem UpToDate.prepare {engine : Engine} (hu : engine.UpToDate) (text : String) :
    (engine.workbench.prepare text engine.registry).1 =
      Script.build engine.bare.sandbox text ∧
    (engine.workbench.prepare text engine.registry).2.1 =
      { engine.workbench with sandbox := some engine.bare.sandbox } := by
  simp [Workbench.prepare, hu.setUp]

/-- The rest of the preparation, once the text is there. -/
theorem onHost_prepare_of_text {engine after : Engine} {text : String} (hu : after.UpToDate)
    (ht : compiledText.onHost host files engine = (.ok (.ok text), after)) :
    prepare.onHost host files engine =
      let workbench := { after.workbench with sandbox := some after.bare.sandbox }
      match Script.build after.bare.sandbox text with
      | .ok script => (.ok (.ok script),
          { after with workbench, compiled := some { text, script := some script } })
      | .error reason => (.ok (.error (.script reason)), { after with workbench }) := by
  obtain ⟨hresult, hbench⟩ := hu.prepare text
  simp only [prepare, onHost_bind, ht, onHost_get, onHost_leave, hresult, hbench]
  cases Script.build after.bare.sandbox text <;> rfl

/-- What is prepared is the script that compiling and building afresh gives. A text that is no
script stays, without a script. -/
theorem follows_prepare : Follows host files prepare BareEngine.prepare := by
  intro engine hu
  show _ ∧ (Except.ok engine.bare.script, engine.bare) = _
  have follows : Follows host files compiledText (do return (← get).text) := follows_compiledText
  obtain ⟨hafter, hbare⟩ := follows engine hu
  change (Except.ok engine.bare.text, engine.bare) = _ at hbare
  generalize ho : compiledText.onHost host files engine = outcome at hafter hbare
  obtain ⟨result, after⟩ := outcome
  obtain ⟨rfl, hb⟩ := Prod.mk.inj hbare
  simp only at hafter hb
  -- the text comes from the cache or is compiled; either way it is the one compiled afresh
  cases ht : engine.bare.text with
  | error err =>
    rw [ht] at ho
    have failed : prepare.onHost host files engine = (.ok (.error err), after) := by
      simp [prepare, onHost_bind, ho]
    rw [failed, hb]
    refine ⟨hafter, ?_⟩
    simp [BareEngine.script, ← hb, ht]
    rfl
  | ok text =>
    rw [ht] at ho
    rw [onHost_prepare_of_text hafter ho]
    have htext : after.bare.text = .ok text := hb ▸ ht
    cases hscript : Script.build after.bare.sandbox text with
    | error reason =>
      refine ⟨⟨fun _ h => (Option.some.inj h).symm, hafter.text, hafter.script⟩, ?_⟩
      rw [hb, BareEngine.script, htext]
      simp [bind, Except.bind, hscript]
      rfl
    | ok script =>
      refine ⟨⟨fun _ h => (Option.some.inj h).symm, fun compiled h => ?_,
        fun compiled built h hs => ?_⟩, ?_⟩
      · cases h
        exact htext
      · cases h
        cases hs
        exact hscript
      · rw [hb, BareEngine.script, htext]
        simp [bind, Except.bind, hscript]
        rfl

/-- The script is the one that compiling and building afresh gives, whether it was kept or not. -/
theorem follows_script : Follows host files script BareEngine.prepare := by
  intro engine hu
  cases hs : engine.compiled.bind (·.script) with
  | some found =>
    obtain ⟨compiled, hc, hcs⟩ := Option.bind_eq_some_iff.1 hs
    have kept : script.onHost host files engine = (.ok (.ok found), engine) := by
      simp [script, onHost_bind, hs]
    have fresh : engine.bare.script = .ok found := by
      simp [BareEngine.script, hu.text compiled hc, bind, Except.bind,
        hu.script compiled found hc hcs]
    rw [kept]
    refine ⟨hu, ?_⟩
    show (Except.ok engine.bare.script, engine.bare) = _
    rw [fresh]
  | none =>
    have measured : script.onHost host files engine =
        (phase Monitor.compilation prepare).onHost host files engine := by
      simp [script, onHost_bind, hs]
    rw [measured]
    exact Follows.phase _ follows_prepare engine hu

/-! ### Execution -/

theorem follows_verdict {α : Type} (result : Except Parameter.Rejection α) :
    Follows host files (verdict result) (pure (result.mapError .validation)) := by
  cases result with
  | ok a => exact Follows.pure _
  | error reason => exact Follows.remark _ (Follows.pure _)

theorem follows_check {α : Type} (run : List Parameter.Spec → Except Parameter.Rejection α) :
    Follows host files (check run) (BareEngine.check run) := by
  refine Follows.get fun engine hu => ?_
  cases hl : engine.loaded with
  | none => exact ⟨by simpa using hu, by simp [hl]; rfl⟩
  | some loaded =>
    have h : Follows host files
        (phase Monitor.validation (pure (run loaded.configuration.parameters)) >>= verdict)
        (pure (run loaded.configuration.parameters) >>= fun result =>
          pure (result.mapError .validation)) :=
      Follows.bind (Follows.phase _ (Follows.pure _)) follows_verdict
    simpa [hl] using h engine hu

theorem follows_runScript (script : Script) (input : String) :
    Follows host files (runScript script input) (BareEngine.runScript host script input) := by
  intro engine hu
  rw [onHost_runScript]
  refine ⟨hu, ?_⟩
  unfold BareEngine.runScript
  cases (script.execute input host).2 <;> rfl

/-- The document that is there already makes no difference to a bare engine. -/
theorem withDocument_document (engine : Engine) :
    engine.bare.withDocument engine.document = engine.bare := by
  cases hl : engine.loaded <;> simp [BareEngine.withDocument, bare, document, hl]

/-- A document that comes out changed makes the script text out of date; one that does not leaves
everything as it is. -/
theorem follows_keep (text : String) :
    Follows host files (keep text) (modify (BareEngine.withDocument text)) := by
  intro engine hu
  by_cases hd : engine.document = text
  · have same : (keep text).onHost host files engine = (.ok (), engine) := by
      simp [keep, onHost_bind, hd]
    rw [same]
    refine ⟨hu, ?_⟩
    show (Except.ok (), engine.bare.withDocument text) = _
    rw [← hd, withDocument_document]
  · have changed : (keep text).onHost host files engine = (.ok (), { engine with
        loaded := engine.loaded.map fun loaded => { loaded with document := text }
        compiled := none }) := by
      simp [keep, onHost_bind, hd]
    rw [changed]
    exact ⟨UpToDate.of_compiled_none rfl hu.sandbox, rfl⟩

theorem follows_run (input : String) (keeps : Bool) :
    Follows host files (run input keeps) (BareEngine.run host input keeps) := by
  refine Follows.bind follows_script fun result => ?_
  cases result with
  | error err => exact Follows.pure _
  | ok script =>
    refine Follows.bind (Follows.phase _ (follows_runScript script input)) fun outcome => ?_
    cases outcome with
    | error err => exact Follows.pure _
    | ok text =>
      cases keeps with
      | false => exact Follows.pure _
      | true => exact Follows.bind (follows_keep text) fun _ => Follows.pure _

theorem follows_runParameters (parameters : Fields Value) :
    Follows host files (runParameters parameters) (BareEngine.runParameters host parameters) := by
  unfold runParameters BareEngine.runParameters
  cases (Value.record parameters).toJson with
  | none => exact Follows.pure _
  | some json => exact follows_run _ _

theorem follows_execute (parameters : Fields Value) :
    Follows host files (execute parameters) (BareEngine.execute host parameters) := by
  refine Follows.bind (follows_check _) fun verdict => ?_
  cases verdict with
  | error err => exact Follows.pure _
  | ok _ => exact follows_runParameters parameters

theorem follows_executeStrings (parameters : Fields String) :
    Follows host files (executeStrings parameters) (BareEngine.executeStrings host parameters) := by
  refine Follows.bind (follows_check _) fun verdict => ?_
  cases verdict with
  | error err => exact Follows.pure _
  | ok values => exact follows_runParameters values

theorem follows_executeJson (input : String) :
    Follows host files (executeJson input) (BareEngine.executeJson host input) := by
  unfold executeJson BareEngine.executeJson
  cases Value.readJson? input with
  | none => exact Follows.remark _ (follows_run _ _)
  | some value =>
    refine Follows.bind (follows_check _) fun verdict => ?_
    cases verdict with
    | error err => exact Follows.pure _
    | ok _ => exact follows_run _ _

end Engine

/-! ### Lists of operations -/

theorem Follows.silent {work : Session Unit} {bare : BareSession Unit}
    (h : Follows host files work bare) :
    Follows host files (Session.silent work) (BareSession.silent bare) :=
  Follows.bind h fun _ => Follows.pure _

/-- Every operation keeps an engine up to date and does what it does to a bare engine. -/
theorem follows_perform (operation : Operation) :
    Follows host files operation.perform (operation.performBare host) := by
  cases operation with
  | setConfiguration configuration => exact (Engine.follows_setConfiguration _).silent
  | configure text => exact Follows.bind (Engine.follows_configure _) fun _ => Follows.pure _
  | setSource source => exact (Engine.follows_setSource _).silent
  | register name action => exact (Engine.follows_register _ _).silent
  | setMode mode => exact (Engine.follows_setMode _).silent
  | setMonitor change => exact (Engine.follows_setMonitor _).silent
  | printMonitor => exact Follows.silent fun _ hu => ⟨hu, rfl⟩
  | scriptText => exact Follows.bind Engine.follows_scriptText fun _ => Follows.pure _
  | execute parameters => exact Follows.bind (Engine.follows_execute _) fun _ => Follows.pure _
  | executeStrings parameters =>
    exact Follows.bind (Engine.follows_executeStrings _) fun _ => Follows.pure _
  | executeJson input => exact Follows.bind (Engine.follows_executeJson _) fun _ => Follows.pure _

/-- An operation keeps an engine up to date, and does the same to the bare engine. -/
theorem Engine.UpToDate.perform {engine : Engine} (h : engine.UpToDate) (host : Host)
    (files : Fields String) (operation : Operation) :
    (operation.perform.onHost host files engine).2.UpToDate ∧
      operation.performBare host engine.bare =
        ((operation.perform.onHost host files engine).1,
          (operation.perform.onHost host files engine).2.bare) := by
  have hfollows : Follows host files operation.perform (operation.performBare host) :=
    follows_perform operation
  exact hfollows engine h

variable (host files)

/-- What a list of operations does to an engine that is up to date, it does to the bare engine. -/
theorem transcript_of_upToDate (operations : List Operation) {engine : Engine}
    (hu : engine.UpToDate) :
    (Engine.transcript host files operations engine).2.UpToDate ∧
      BareEngine.transcript host operations engine.bare =
        ((Engine.transcript host files operations engine).1,
          (Engine.transcript host files operations engine).2.bare) := by
  induction operations generalizing engine with
  | nil => exact ⟨hu, rfl⟩
  | cons operation rest ih =>
    obtain ⟨hafter, hbare⟩ := hu.perform host files operation
    obtain ⟨hfinal, hrest⟩ := ih hafter
    refine ⟨hfinal, ?_⟩
    simp only [BareEngine.transcript, Engine.transcript, hbare, hrest, Engine.bare_document]

/-- Operations lead a fresh engine to one that is up to date. -/
theorem Engine.upToDate_transcript (operations : List Operation) :
    (Engine.transcript host files operations {}).2.UpToDate :=
  (transcript_of_upToDate host files operations Engine.upToDate_default).1

/-- **Caching does not show.** Whatever is done with a fresh engine, all its answers and all its
documents are those of a bare engine, which compiles the text and builds the script again each time;
in the end it has been told the same as the bare engine, a text that it keeps is the one that
compiling afresh gives, and a script that it keeps was built from that text in a sandbox of the
current mode with exactly the registered actions. -/
theorem transcript_eq_bare (operations : List Operation) :
    (Engine.transcript host files operations {}).1 =
        (BareEngine.transcript host operations {}).1 ∧
      (Engine.transcript host files operations {}).2.bare =
        (BareEngine.transcript host operations {}).2 ∧
      (Engine.transcript host files operations {}).2.UpToDate := by
  obtain ⟨hu, hbare⟩ := transcript_of_upToDate host files operations Engine.upToDate_default
  have start : ({} : Engine).bare = {} := rfl
  rw [← start, hbare]
  exact ⟨rfl, rfl, hu⟩

end
end Rulebook
