import Rulebook.Proofs.Engine.Calls

/-!
# What the operations of an engine leave

The output of an operation is that of its steps, one after the other. An `Output.Kind` is a kind of
outputs that sequences stay within and that has room for whatever an engine itself logs. Apart from
the report of the monitor, an operation leaves output of such a kind if the scripts of the engine do:
`leaves_perform`.
-/

namespace Rulebook

open Script

/-- A kind of outputs that sequences stay within. -/
structure Output.Kind where
  holds : Output → Prop
  empty : holds .empty
  append : ∀ {a b : Output}, holds a → holds b → holds (a ++ b)
  /-- What is not logged by the program itself is of the kind. -/
  log : ∀ {level : Level} {target message : String}, target ≠ "docrule" →
    holds (.log level target message)

/-- Whether scripts in a sandbox leave output of a kind only. -/
def Output.Kind.Covers (kind : Output.Kind) (sandbox : Sandbox) (host : Host) : Prop :=
  ∀ script : Script, script.sandbox = sandbox → ∀ input, kind.holds (script.execute input host).1

variable {kind : Output.Kind} {host : Host} {files : Fields String} {engine : Engine}

/-! ### Sessions -/

namespace Session

variable {α β : Type} {work : Session α}

/-- Whether a session leaves output of a kind when it starts from an engine. -/
def Leaves (kind : Output.Kind) (host : Host) (files : Fields String) (work : Session α)
    (engine : Engine) : Prop := kind.holds (Procedure.onHost host files (work engine)).1

theorem Leaves.pure (a : α) : Leaves kind host files (Pure.pure a) engine := kind.empty

theorem Leaves.bind {next : α → Session β} (h : Leaves kind host files work engine)
    (hnext : ∀ a after, work.onHost host files engine = (.ok a, after) →
      Leaves kind host files (next a) after) : Leaves kind host files (work >>= next) engine := by
  rw [Leaves, bind_apply, Procedure.onHost_bind]
  refine kind.append h ?_
  rcases hwork : (Procedure.onHost host files (work engine)).2 with ⟨fault | a, after⟩
  · exact kind.empty
  · exact hnext a after hwork

/-- One session after another, both of which leave output of a kind from whatever engine. -/
theorem Leaves.next {next : α → Session β} (h : Leaves kind host files work engine)
    (hnext : ∀ a after, Leaves kind host files (next a) after) :
    Leaves kind host files (work >>= next) engine := h.bind fun a after _ => hnext a after

theorem leaves_leave {output : Output} (h : kind.holds output) :
    Leaves kind host files (leave output) engine := kind.append h kind.empty

theorem leaves_remark (text : String) : Leaves kind host files (remark text) engine :=
  leaves_leave (kind.log (by decide))

theorem leaves_modify (change : Engine → Engine) :
    Leaves kind host files (modify change) engine := kind.empty

theorem holds_stop (monitor : Monitor) (label : String) (time : Nat) :
    kind.holds (monitor.stop label time).2 := by
  unfold Monitor.stop
  split
  · split
    · exact kind.empty
    · exact kind.log (by decide)
  · exact kind.empty

/-- To measure a session leaves at most a record of the monitor. -/
theorem leaves_phase (label : String)
    (h : ∀ monitor, Leaves kind host files work { engine with monitor }) :
    Leaves kind host files (phase label work) engine := by
  refine Leaves.bind kind.empty fun before after hbefore => ?_
  cases hbefore
  refine Leaves.bind (leaves_modify _) fun _ after hstart => ?_
  cases hstart
  refine Leaves.next (h _) fun result after => Leaves.next kind.empty fun last after => ?_
  refine Leaves.next kind.empty fun stopped after => Leaves.next (leaves_modify _) fun _ after => ?_
  exact Leaves.next (leaves_leave (holds_stop _ _ _)) fun _ _ => .pure _

end Session

/-! ### Scripts -/

/-- The script of an engine runs in the engine's sandbox. -/
theorem BareEngine.sandbox_of_script {bare : BareEngine} {script : Script}
    (h : bare.script = .ok script) : script.sandbox = bare.sandbox := by
  rw [BareEngine.script] at h
  cases htext : bare.text with
  | error err =>
    rw [htext] at h
    cases h
  | ok source =>
    rw [htext] at h
    change (Script.build bare.sandbox source).mapError EngineError.script = _ at h
    unfold Script.build at h
    split at h
    · cases h
      rfl
    · cases h

namespace Engine

open Session

theorem leaves_compiledText : Leaves kind host files compiledText engine := by
  refine Leaves.next kind.empty fun engine after => ?_
  split
  · exact .pure _
  · exact .pure _
  · split
    · exact Leaves.next (leaves_modify _) fun _ _ => .pure _
    · exact .pure _

/-- The text of a script leaves no more than what measuring it does. -/
theorem leaves_scriptText : Leaves kind host files scriptText engine := by
  refine Leaves.next kind.empty fun engine after => ?_
  split
  · exact leaves_compiledText
  · exact leaves_phase _ fun _ => leaves_compiledText

/-- To set up a sandbox is logged, and no more. -/
theorem holds_prepare (workbench : Workbench) (text : String) (registry : Registry) :
    kind.holds (workbench.prepare text registry).2.2 := by
  unfold Workbench.prepare Workbench.setUp
  cases workbench.sandbox with
  | none => exact kind.log (by decide)
  | some sandbox => exact kind.empty

theorem leaves_prepare : Leaves kind host files prepare engine := by
  refine Leaves.next leaves_compiledText fun text after => ?_
  split
  · exact .pure _
  · rename_i text
    refine Leaves.next kind.empty fun engine after => ?_
    have hholds := @holds_prepare kind engine.workbench text engine.registry
    generalize engine.workbench.prepare text engine.registry = prepared at hholds ⊢
    obtain ⟨result, workbench, output⟩ := prepared
    refine Leaves.next (leaves_leave hholds) fun _ after => ?_
    cases result with
    | ok script =>
      exact Leaves.next (leaves_remark _) fun _ _ => Leaves.next (leaves_modify _) fun _ _ => .pure _
    | error reason => exact Leaves.next (leaves_modify _) fun _ _ => .pure _

theorem leaves_script : Leaves kind host files script engine := by
  refine Leaves.next kind.empty fun found after => ?_
  split
  · exact .pure _
  · exact leaves_phase _ fun _ => leaves_prepare

theorem leaves_runScript {script : Script} {input : String}
    (h : kind.holds (script.execute input host).1) :
    Leaves kind host files (runScript script input) engine := by
  refine Leaves.bind kind.empty fun found after hfound => ?_
  cases hfound
  generalize script.execute input host = executed at h ⊢
  obtain ⟨output, result⟩ := executed
  refine Leaves.next (leaves_leave h) fun _ after => Leaves.next kind.empty fun result after => ?_
  split <;> exact .pure _

theorem leaves_keep (text : String) : Leaves kind host files (keep text) engine := by
  refine Leaves.next kind.empty fun found after => ?_
  split
  · exact Leaves.next (leaves_remark _) fun _ _ => leaves_modify _
  · exact .pure _

/-- The rules of an engine leave output of a kind if its scripts do. -/
theorem leaves_run (hu : engine.UpToDate) (hcovers : kind.Covers engine.bare.sandbox host)
    (input : String) (keeps : Bool) : Leaves kind host files (run input keeps) engine := by
  refine Leaves.bind leaves_script fun result after hresult => ?_
  have hfollows : Follows host files Engine.script BareEngine.prepare := follows_script
  obtain ⟨-, hbare⟩ := hfollows engine hu
  rw [hresult] at hbare
  have hscript : Except.ok (ε := Fault) engine.bare.script = .ok result := (Prod.mk.inj hbare).1
  cases result with
  | error err => exact .pure _
  | ok script =>
    have hholds := hcovers script (BareEngine.sandbox_of_script (Except.ok.inj hscript)) input
    refine Leaves.next (leaves_phase _ fun _ => leaves_runScript hholds) fun outcome after => ?_
    cases outcome with
    | error err => exact .pure _
    | ok text =>
      cases keeps with
      | false => exact .pure _
      | true => exact Leaves.next (leaves_keep text) fun _ _ => .pure _

theorem leaves_runParameters (hu : engine.UpToDate)
    (hcovers : kind.Covers engine.bare.sandbox host) (parameters : Fields Value) :
    Leaves kind host files (runParameters parameters) engine := by
  unfold runParameters
  split
  · exact leaves_run hu hcovers _ _
  · exact .pure _

/-! ### Operations -/

theorem leaves_check {α : Type} (run : List Parameter.Spec → Except Parameter.Rejection α) :
    Leaves kind host files (check run) engine := by
  refine Leaves.next kind.empty fun found after => ?_
  split
  · exact .pure _
  · refine Leaves.next (leaves_phase _ fun _ => .pure _) fun result after => ?_
    unfold verdict
    split
    · exact .pure _
    · exact Leaves.next (leaves_remark _) fun _ _ => .pure _

/-- What a check leaves of an engine. -/
theorem bare_of_check {α : Type} {run : List Parameter.Spec → Except Parameter.Rejection α}
    (hu : engine.UpToDate) {result : Except EngineError α} {after : Engine}
    (h : (check run).onHost host files engine = (.ok result, after)) :
    after.UpToDate ∧ after.bare = engine.bare := by
  have hfollows : Follows host files (check run) (BareEngine.check run) := follows_check run
  obtain ⟨hafter, hbare⟩ := hfollows engine hu
  rw [h] at hafter hbare
  have hstill := BareEngine.still_check run engine.bare
  rw [hbare] at hstill
  exact ⟨hafter, hstill⟩

/-- A check and what goes on after it if it succeeds. -/
theorem leaves_checked {α : Type} {run : List Parameter.Spec → Except Parameter.Rejection α}
    {next : Except EngineError α → Session (Except EngineError String)} (hu : engine.UpToDate)
    (hcovers : kind.Covers engine.bare.sandbox host)
    (herror : ∀ err, next (.error err) = return .error err)
    (h : ∀ a {after : Engine}, after.UpToDate → kind.Covers after.bare.sandbox host →
      Leaves kind host files (next (.ok a)) after) :
    Leaves kind host files (check run >>= next) engine := by
  refine Leaves.bind (leaves_check run) fun result after hresult => ?_
  obtain ⟨hafter, hbare⟩ := bare_of_check hu hresult
  cases result with
  | error err =>
    rw [herror]
    exact .pure _
  | ok a => exact h a hafter (hbare ▸ hcovers)

theorem leaves_executeJson (hu : engine.UpToDate) (hcovers : kind.Covers engine.bare.sandbox host)
    (input : String) : Leaves kind host files (executeJson input) engine := by
  unfold executeJson
  split
  · refine Leaves.bind (leaves_remark _) fun _ after hafter => ?_
    cases hafter
    exact leaves_run hu hcovers _ _
  · refine leaves_checked hu hcovers (fun _ => rfl) ?_
    exact fun _ _ hafter hcovers => leaves_run hafter hcovers _ _

theorem leaves_setConfiguration (configuration : Configuration) :
    Leaves kind host files (setConfiguration configuration) engine :=
  Leaves.next (leaves_remark _) fun _ _ => leaves_modify _

theorem leaves_configure (text : String) : Leaves kind host files (configure text) engine := by
  refine Leaves.next kind.empty fun found after => Leaves.next kind.empty fun result after => ?_
  cases result with
  | ok configuration => exact Leaves.next (leaves_setConfiguration _) fun _ _ => .pure _
  | error reason => exact .pure _

theorem leaves_register (name : String) (action : Action) :
    Leaves kind host files (register name action) engine := by
  refine Leaves.next kind.empty fun found after => ?_
  have hholds : kind.holds (found.registry.register name action).2 := by
    unfold Registry.register
    dsimp only
    split
    · exact kind.log (by decide)
    · exact kind.empty
  exact Leaves.next (leaves_leave hholds) fun _ _ => leaves_modify _

theorem leaves_setMode (mode : SecurityMode) :
    Leaves kind host files (setMode mode) engine := by
  refine Leaves.next kind.empty fun found after => ?_
  dsimp only
  split
  · exact Leaves.next (leaves_remark _) fun _ _ => leaves_modify _
  · exact .pure _

/-- **Operations leave output of a kind** if the scripts of the engine do, except that the report of
the monitor is printed. -/
theorem leaves_perform (hu : engine.UpToDate) (hcovers : kind.Covers engine.bare.sandbox host)
    {operation : Operation} (hprints : operation ≠ .printMonitor) :
    Leaves kind host files operation.perform engine := by
  cases operation with
  | setConfiguration configuration =>
    exact Leaves.next (leaves_setConfiguration _) fun _ _ => .pure _
  | configure text => exact Leaves.next (leaves_configure text) fun _ _ => .pure _
  | setSource source => exact Leaves.next (leaves_modify _) fun _ _ => .pure _
  | register name action => exact Leaves.next (leaves_register name action) fun _ _ => .pure _
  | setMode mode => exact Leaves.next (leaves_setMode mode) fun _ _ => .pure _
  | setMonitor change => exact Leaves.next (leaves_modify _) fun _ _ => .pure _
  | printMonitor => exact absurd rfl hprints
  | scriptText => exact Leaves.next leaves_scriptText fun _ _ => .pure _
  | execute parameters =>
    refine Leaves.next (leaves_checked hu hcovers (fun _ => rfl) ?_) fun _ _ => .pure _
    exact fun _ _ hafter hcovers => leaves_runParameters hafter hcovers _
  | executeStrings parameters =>
    refine Leaves.next (leaves_checked hu hcovers (fun _ => rfl) ?_) fun _ _ => .pure _
    exact fun _ _ hafter hcovers => leaves_runParameters hafter hcovers _
  | executeJson input =>
    exact Leaves.next (leaves_executeJson hu hcovers input) fun _ _ => .pure _

end Engine
end Rulebook
