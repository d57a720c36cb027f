import Rulebook.CommandLine.Program
import Rulebook.Proofs.Engine.Closure
import Rulebook.Proofs.Script.Logging

/-!
# The steps of the program

Before it feeds its engine, the program takes it through a few operations. If none of them fails, the
program goes on with the engine that they lead to, and the only records of its own are those of the
steps that leave one: `onHost_steps`. No operation of an engine leaves a record of the program.
-/

namespace Rulebook

open Script

namespace Procedure

theorem bind_assoc {α β γ : Type} (p : Procedure α) (f : α → Procedure β) (g : β → Procedure γ) :
    bind (bind p f) g = bind p fun a => bind (f a) g := by
  induction p with
  | done a => rfl
  | look next ih => exact congrArg look (funext ih)
  | read path next ih => exact congrArg (read path) (funext ih)
  | emit output next ih => exact congrArg (emit output) ih

theorem map_id {α : Type} (p : Procedure α) : id <$> p = p := by
  show bind p done = p
  induction p with
  | done a => rfl
  | look next ih => exact congrArg look (funext ih)
  | read path next ih => exact congrArg (read path) (funext ih)
  | emit output next ih => exact congrArg (emit output) ih

instance : LawfulMonad Procedure := LawfulMonad.mk' Procedure map_id (fun _ _ => rfl) bind_assoc

end Procedure

/-! ### Records of the program itself -/

namespace Output

/-- The records of the program itself. -/
def own (output : Output) : List LogRecord := output.logs.filter (·.target = "docrule")

@[simp]
theorem own_append (a b : Output) : (a ++ b).own = a.own ++ b.own := by
  rw [own, logs_append, List.filter_append]
  rfl

theorem own_of_foreign {output : Output} (h : output.Foreign) : output.own = [] := by
  rw [own, List.filter_eq_nil_iff]
  intro record hrecord
  simpa using h record hrecord

/-- The outputs without a record of the program itself. -/
def Kind.foreign : Kind where
  holds := Foreign
  empty := foreign_empty
  append ha hb := foreign_append_iff.2 ⟨ha, hb⟩
  log := foreign_log

end Output

/-! ### Operations that prepare an engine -/

namespace Engine

variable {host : Host} {files : Fields String} {engine : Engine}

theorem transcript_cons (operation : Operation) (rest : List Operation) (engine : Engine) :
    transcript host files (operation :: rest) engine =
      let outcome := operation.perform.onHost host files engine
      ((outcome.1, outcome.2.document) :: (transcript host files rest outcome.2).1,
        (transcript host files rest outcome.2).2) := rfl

theorem transcript_append (before after : List Operation) (engine : Engine) :
    transcript host files (before ++ after) engine =
      ((transcript host files before engine).1 ++
        (transcript host files after (transcript host files before engine).2).1,
        (transcript host files after (transcript host files before engine).2).2) := by
  induction before generalizing engine with
  | nil => rfl
  | cons operation rest ih =>
    rw [List.cons_append, transcript_cons, transcript_cons]
    dsimp only
    rw [ih]
    rfl

/-- Whether operations, one after the other, come to neither errors nor faults. -/
def Manages (host : Host) (files : Fields String) (operations : List Operation) (engine : Engine) :
    Prop :=
  ∀ entry ∈ (transcript host files operations engine).1, ∃ text, entry.1 = .ok (.ok text)

instance (operations : List Operation) : Decidable (Manages host files operations engine) :=
  decidable_of_iff
    ((transcript host files operations engine).1.all fun
      | (.ok (.ok _), _) => true
      | _ => false) <| by
    rw [List.all_eq_true]
    refine forall₂_congr fun entry _ => ?_
    obtain ⟨fault | err | text, document⟩ := entry <;> simp

theorem manages_append_iff {before after : List Operation} :
    Manages host files (before ++ after) engine ↔ Manages host files before engine ∧
      Manages host files after (transcript host files before engine).2 := by
  simp only [Manages, transcript_append, List.mem_append, or_imp, forall_and]

theorem manages_singleton_iff {operation : Operation} :
    Manages host files [operation] engine ↔
      ∃ text, (operation.perform.onHost host files engine).1 = .ok (.ok text) := by
  simp [Manages, transcript]

/-- Whether no action of an engine leaves a record of the program itself. -/
def ActsForeign (engine : Engine) : Prop :=
  ∀ name action, engine.registry.get? name = some action → action.Foreign

/-- The scripts of such an engine leave no record of the program itself either. -/
theorem ActsForeign.covers (h : engine.ActsForeign) (host : Host) :
    Output.Kind.foreign.Covers engine.bare.sandbox host := by
  intro script hscript input
  refine foreign_execute (fun name action haction => h name action ?_) input host
  rw [hscript] at haction
  exact haction

end Engine

/-- Whether an operation prepares an engine for calls, without actions that leave records of the
program itself. -/
def Operation.Prepares : Operation → Prop
  | setConfiguration _ => True
  | configure _ => True
  | setSource _ => True
  | register _ action => action.Foreign
  | setMode _ => True
  | setMonitor _ => True
  | scriptText => True
  | _ => False

theorem Engine.ActsForeign.perform {engine : Engine} {operation : Operation} (h : engine.ActsForeign)
    (hu : engine.UpToDate) (hprepares : operation.Prepares) (host : Host) (files : Fields String) :
    (operation.perform.onHost host files engine).2.ActsForeign := by
  have hbare := congrArg (fun outcome => outcome.2.registry) (hu.perform host files operation).2
  simp only [Engine.bare_registry] at hbare
  unfold ActsForeign
  rw [← hbare]
  cases operation with
  | register name action =>
    intro other found hfound
    change (engine.registry.register name action).1.get? other = some found at hfound
    rw [Registry.get?_register] at hfound
    split at hfound
    · cases hfound
      exact hprepares
    · exact h other found hfound
  | configure text =>
    intro name action haction
    rw [Operation.performBare, BareSession.bind_apply, BareEngine.configure_apply] at haction
    refine h name action ?_
    rw [← haction]
    rcases engine.bare.source.configuration text with fault | reason | configuration <;> rfl
  | printMonitor => exact hprepares.elim
  | execute parameters => exact hprepares.elim
  | executeStrings parameters => exact hprepares.elim
  | executeJson input => exact hprepares.elim
  | _ => exact h

theorem Engine.ActsForeign.transcript {engine : Engine} {operations : List Operation}
    (h : engine.ActsForeign) (hreachable : engine.Reachable)
    (hprepares : ∀ operation ∈ operations, operation.Prepares) (host : Host) (files : Fields String) :
    (engine.transcript host files operations).2.ActsForeign := by
  induction operations generalizing engine with
  | nil => exact h
  | cons operation rest ih =>
    have hfirst := h.perform hreachable.upToDate (hprepares operation List.mem_cons_self)
      host files
    exact ih hfirst (hreachable.perform host files operation)
      fun other hother => hprepares other (List.mem_cons_of_mem operation hother)

namespace CommandLine

variable {α β : Type} {host : Host} {files : Fields String} {engine after : Engine}

/-! ### One job after another -/

/-- A session goes on where another one has ended well. -/
theorem onHost_session_bind {work : Session α} {a : α}
    (h : work.onHost host files engine = (.ok a, after)) (next : α → Session β) :
    Procedure.onHost host files ((work >>= next) engine) =
      ((Procedure.onHost host files (work engine)).1 ++ (Procedure.onHost host files (next a after)).1,
        (Procedure.onHost host files (next a after)).2) := by
  rw [Session.onHost] at h
  rw [Session.bind_apply, Procedure.onHost_bind, h]
  rfl

/-- A job goes on where another one has ended well. -/
theorem onHost_bind_of_ok {work : Job α} {a : α}
    (h : (Procedure.onHost host files (work.run engine)).2 = (.ok (.ok a), after))
    (next : α → Job β) : Procedure.onHost host files ((work >>= next).run engine) =
      ((Procedure.onHost host files (work.run engine)).1 ++
        (Procedure.onHost host files ((next a).run after)).1,
        (Procedure.onHost host files ((next a).run after)).2) := by
  rw [ExceptT.run_bind]
  exact onHost_session_bind h _

theorem run_lift (work : Session α) :
    (liftM work : Job α).run = work >>= fun a => pure (.ok a) := by
  show Except.ok <$> work = _
  rw [map_eq_pure_bind]

/-- What is lifted into a job leaves its own output. -/
theorem onHost_lift {work : Session α} {a : α} (h : work.onHost host files engine = (.ok a, after)) :
    Procedure.onHost host files ((liftM work : Job α).run engine) =
      ((Procedure.onHost host files (work engine)).1, (.ok (.ok a), after)) := by
  rw [run_lift, onHost_session_bind h]
  exact congrArg (·, _) (Output.append_empty _)

/-- How the program reports what a call of its engine came to, after words on what was tried. -/
def reported (tried : List String) (call : Except Fault (Except EngineError α) × Engine) :
    Except Fault (Except (List String) α) × Engine :=
  (call.1.map fun result => result.mapError fun err => tried ++ err.message :: err.causes, call.2)

/-- An operation of an engine leaves its own output, and its result is reported. -/
theorem onHost_ofSession (tried : List String) (work : Session (Except EngineError α)) :
    Procedure.onHost host files ((Job.ofSession tried work).run engine) =
      ((Procedure.onHost host files (work engine)).1,
        reported tried (work.onHost host files engine)) := by
  rw [Job.ofSession, ExceptT.run_mk, Session.bind_apply, Procedure.onHost_bind, Session.onHost]
  rcases (Procedure.onHost host files (work engine)).2 with ⟨fault | result, after⟩
  · exact Prod.ext (Output.append_empty _) rfl
  · cases result <;> exact Prod.ext (Output.append_empty _) rfl

/-! ### Steps -/

/-- A step of the program: what it does, the operations that this is for its engine, and the records
that it leaves itself. -/
structure Step where
  job : Job Unit
  operations : List Operation
  records : List LogRecord := []

namespace Step

/-- The job of steps, and of what comes after them. -/
def before (last : Job α) (steps : List Step) : Job α :=
  steps.foldr (fun step next => do step.job; next) last

/-- Whether a step does its operations and leaves its records, unless an operation fails. -/
def Faithful (host : Host) (files : Fields String) (step : Step) : Prop :=
  ∀ engine : Engine, engine.Manages host files step.operations →
    (Procedure.onHost host files (step.job.run engine)).2 =
        (.ok (.ok ()), (engine.transcript host files step.operations).2) ∧
      (Procedure.onHost host files (step.job.run engine)).1.own = step.records

/-- A step that is done on a condition. -/
def onlyIf (c : Prop) [Decidable c] (step : Step) : Step :=
  if c then step else { job := pure (), operations := [] }

theorem faithful_onlyIf {c : Prop} [Decidable c] {step : Step} (h : step.Faithful host files) :
    (step.onlyIf c).Faithful host files := by
  unfold onlyIf
  split
  · exact h
  · exact fun _ _ => ⟨rfl, rfl⟩

/-- **Steps before a job.** If no operation fails, the job goes on with the engine that the operations
lead to, and behind the records of the steps stand its own. -/
theorem onHost_before (last : Job α) {steps : List Step} (h : ∀ step ∈ steps, step.Faithful host files)
    (hmanages : engine.Manages host files (steps.flatMap operations)) :
    let after := (engine.transcript host files (steps.flatMap operations)).2
    (Procedure.onHost host files ((before last steps).run engine)).2 =
        (Procedure.onHost host files (last.run after)).2 ∧
      (Procedure.onHost host files ((before last steps).run engine)).1.own =
        steps.flatMap records ++ (Procedure.onHost host files (last.run after)).1.own := by
  induction steps generalizing engine with
  | nil => exact ⟨rfl, rfl⟩
  | cons step rest ih =>
    rw [List.flatMap_cons, Engine.manages_append_iff] at hmanages
    obtain ⟨hresult, hown⟩ := h step List.mem_cons_self engine hmanages.1
    obtain ⟨hrest, hrecords⟩ := ih (fun other hother => h other (List.mem_cons_of_mem step hother))
      hmanages.2
    have hbind := onHost_bind_of_ok hresult fun _ => before last rest
    rw [List.flatMap_cons, List.flatMap_cons, Engine.transcript_append]
    show (Procedure.onHost host files ((step.job >>= fun _ => before last rest).run engine)).2 = _ ∧
      (Procedure.onHost host files ((step.job >>= fun _ => before last rest).run engine)).1.own = _
    rw [hbind, Output.own_append, hown, hrest, hrecords, List.append_assoc]
    exact ⟨rfl, rfl⟩

section

variable {operation : Operation}

/-- A session behind an operation without an answer, if the operation succeeds. -/
theorem onHost_of_silent {work : Session Unit} (h : operation.perform = Session.silent work)
    (hmanages : engine.Manages host files [operation]) : work.onHost host files engine =
      (.ok (), (engine.transcript host files [operation]).2) := by
  obtain ⟨text, htext⟩ := Engine.manages_singleton_iff.1 hmanages
  have hafter : (engine.transcript host files [operation]).2 =
      (operation.perform.onHost host files engine).2 := rfl
  rw [h, Session.silent, Session.onHost_bind] at htext
  rw [hafter, h, Session.silent, Session.onHost_bind]
  rcases hwork : work.onHost host files engine with ⟨fault | a, after⟩
  · rw [hwork] at htext
    cases htext
  · rfl

/-- A session behind an operation with an answer, if the operation succeeds. -/
theorem onHost_of_answer {work : Session (Except EngineError α)} {f : α → Option String}
    (h : operation.perform = do return (← work).map f)
    (hmanages : engine.Manages host files [operation]) : ∃ a, work.onHost host files engine =
      (.ok (.ok a), (engine.transcript host files [operation]).2) := by
  obtain ⟨text, htext⟩ := Engine.manages_singleton_iff.1 hmanages
  have hafter : (engine.transcript host files [operation]).2 =
      (operation.perform.onHost host files engine).2 := rfl
  rw [h, Session.onHost_bind] at htext
  rw [hafter, h, Session.onHost_bind]
  rcases hwork : work.onHost host files engine with ⟨fault | err | a, after⟩
  · rw [hwork] at htext
    cases htext
  · rw [hwork] at htext
    cases htext
  · exact ⟨a, rfl⟩

/-- A step that does an operation without an answer. -/
theorem faithful_lift {work : Session Unit} (h : operation.perform = Session.silent work)
    (hforeign : ∀ engine, work.Leaves .foreign host files engine) :
    Faithful host files { job := liftM work, operations := [operation] } := by
  intro engine hmanages
  have hlift := onHost_lift (onHost_of_silent h hmanages)
  dsimp only
  rw [hlift]
  exact ⟨rfl, Output.own_of_foreign (hforeign engine)⟩

/-- A step that leaves a record and does an operation without an answer. -/
theorem faithful_note {work : Session Unit} (level : Level) (text : String)
    (h : operation.perform = Session.silent work)
    (hforeign : ∀ engine, work.Leaves .foreign host files engine) :
    Faithful host files
      { job := do
          note level text
          liftM work
        operations := [operation]
        records := [⟨level, "docrule", text⟩] } := by
  intro engine hmanages
  have hnote : (note level text).onHost host files engine = (.ok (), engine) := rfl
  have hlift := onHost_lift (onHost_of_silent h hmanages)
  have hbind := onHost_bind_of_ok (congrArg Prod.snd (onHost_lift hnote)) fun _ => liftM work
  dsimp only
  rw [hbind, hlift, Output.own_append, Output.own_of_foreign (hforeign engine), onHost_lift hnote]
  exact ⟨rfl, rfl⟩

/-- A step that does an operation with an answer, which is not wanted. -/
theorem faithful_ofSession {work : Session (Except EngineError Unit)} {f : Unit → Option String}
    (tried : List String) (h : operation.perform = do return (← work).map f)
    (hforeign : ∀ engine, work.Leaves .foreign host files engine) :
    Faithful host files { job := Job.ofSession tried work, operations := [operation] } := by
  intro engine hmanages
  obtain ⟨_, hwork⟩ := onHost_of_answer h hmanages
  dsimp only
  rw [onHost_ofSession, hwork]
  exact ⟨rfl, Output.own_of_foreign (hforeign engine)⟩

/-- A step that prints the answer of an operation. -/
theorem faithful_print {work : Session (Except EngineError String)} {f : String → Option String}
    (h : operation.perform = do return (← work).map f)
    (hforeign : ∀ engine, work.Leaves .foreign host files engine) :
    Faithful host files
      { job := do printLine (← Job.ofSession [] work), operations := [operation] } := by
  intro engine hmanages
  obtain ⟨text, hwork⟩ := onHost_of_answer h hmanages
  have hjob : (Procedure.onHost host files ((Job.ofSession [] work).run engine)).2 =
      (.ok (.ok text), (engine.transcript host files [operation]).2) := by
    rw [onHost_ofSession, hwork]
    rfl
  have hprint : (printLine text).onHost host files (engine.transcript host files [operation]).2 =
      (.ok (), (engine.transcript host files [operation]).2) := rfl
  have hbind := onHost_bind_of_ok hjob fun text => (liftM (printLine text) : Job Unit)
  dsimp only
  rw [hbind, onHost_lift hprint, Output.own_append, onHost_ofSession,
    Output.own_of_foreign (hforeign engine)]
  exact ⟨rfl, rfl⟩

end

theorem prepares_onlyIf {c : Prop} [Decidable c] {step : Step}
    (h : ∀ operation ∈ step.operations, operation.Prepares) :
    ∀ operation ∈ (step.onlyIf c).operations, operation.Prepares := by
  unfold onlyIf
  split
  · exact h
  · simp

end Step

/-! ### The program -/

/-- The steps of an invocation before its engine is fed. -/
def Invocation.steps (invocation : Invocation) (settings : Settings) (limit : Nat) (text : String) :
    List Step :=
  [.onlyIf (invocation.format = .yaml)
    { job := liftM (Engine.setSource .yaml), operations := [.setSource .yaml] },
   { job := liftM (Engine.register "Log" (Action.log "document" limit))
     operations := [.register "Log" (Action.log "document" limit)] },
   { job := Job.ofSession ["Failed to load " ++ invocation.path] (Engine.configure text)
     operations := [.configure text] },
   .onlyIf (invocation.insecure || !settings.secure)
    { job := do
        note .warn "Running in open mode, host functions are available to rules"
        liftM (Engine.setMode .opened)
      operations := [.setMode .opened]
      records := [⟨.warn, "docrule", "Running in open mode, host functions are available to rules"⟩] },
   .onlyIf (invocation.monitor || settings.monitor)
    { job := liftM (Engine.setMonitor Monitor.enable), operations := [.setMonitor Monitor.enable] },
   .onlyIf invocation.showScript
    { job := do printLine (← Job.ofSession [] Engine.scriptText), operations := [.scriptText] }]

/-- The operations that prepare the engine of an invocation. -/
def Invocation.preparation (invocation : Invocation) (settings : Settings) (limit : Nat)
    (text : String) : List Operation := (invocation.steps settings limit text).flatMap Step.operations

/-- The engine of an invocation before it is fed. -/
def Invocation.prepared (invocation : Invocation) (settings : Settings) (limit : Nat) (text : String)
    (host : Host) (files : Fields String) : Engine :=
  (Engine.transcript host files (invocation.preparation settings limit text) {}).2

/-- What an invocation does from the time when its engine is fed. -/
def closing (invocation : Invocation) : Job Unit := do
  let _ ← feed invocation
  printLine (← Job.ofSession [] (return (← get).indented))
  let monitor := (← getThe Engine).monitor
  if !monitor.markers.isEmpty then Session.leave (.print monitor.report)

theorem job_eq (invocation : Invocation) (settings : Settings) (limit : Nat) (text : String) :
    job invocation settings limit text =
      Step.before (closing invocation) (invocation.steps settings limit text) := by
  simp only [job, Invocation.steps, Step.before, List.foldr_cons, List.foldr_nil, closing, Step.onlyIf]
  split_ifs <;> simp only [bind_assoc, pure_bind]

theorem faithful_steps (invocation : Invocation) (settings : Settings) (limit : Nat) (text : String) :
    ∀ step ∈ invocation.steps settings limit text, step.Faithful host files := by
  simp only [Invocation.steps, List.forall_mem_cons, List.not_mem_nil, false_imp_iff, implies_true,
    and_true]
  refine ⟨Step.faithful_onlyIf (Step.faithful_lift rfl fun _ => Session.leaves_modify _),
    Step.faithful_lift rfl fun _ => Engine.leaves_register _ _,
    Step.faithful_ofSession _ rfl fun _ => Engine.leaves_configure _,
    Step.faithful_onlyIf (Step.faithful_note _ _ rfl fun _ => Engine.leaves_setMode _),
    Step.faithful_onlyIf (Step.faithful_lift rfl fun _ => Session.leaves_modify _),
    Step.faithful_onlyIf (Step.faithful_print rfl fun _ => Engine.leaves_scriptText)⟩

theorem prepares_steps (invocation : Invocation) (settings : Settings) (limit : Nat) (text : String) :
    ∀ step ∈ invocation.steps settings limit text,
      ∀ operation ∈ step.operations, operation.Prepares := by
  have hlog : (Action.log "document" limit).Foreign := fun _ _ => Output.foreign_log (by decide)
  simp only [Invocation.steps, List.forall_mem_cons, List.not_mem_nil, false_imp_iff, implies_true,
    and_true]
  refine ⟨Step.prepares_onlyIf ?_, hlog, trivial, Step.prepares_onlyIf ?_, Step.prepares_onlyIf ?_,
    Step.prepares_onlyIf ?_⟩ <;> simp [Operation.Prepares]

variable {invocation : Invocation} {settings : Settings} {limit : Nat} {text : String}

/-- A prepared engine was led there by operations. -/
theorem prepared_reachable : (invocation.prepared settings limit text host files).Reachable :=
  Engine.Reachable.fresh.transcript host files _

/-- The actions of a prepared engine leave no record of the program itself. -/
theorem prepared_actsForeign : (invocation.prepared settings limit text host files).ActsForeign := by
  have hnone : ({} : Engine).ActsForeign := by
    intro name action haction
    cases haction
  refine hnone.transcript .fresh (fun operation hoperation => ?_) host files
  obtain ⟨step, hstep, hoperation⟩ := List.mem_flatMap.1 hoperation
  exact prepares_steps invocation settings limit text step hstep operation hoperation

theorem leaves_job_bind {work : Job α} {next : α → Job β}
    (h : work.run.Leaves .foreign host files engine)
    (hnext : ∀ a after, (next a).run.Leaves .foreign host files after) :
    (work >>= next).run.Leaves .foreign host files engine := by
  rw [ExceptT.run_bind]
  refine Session.Leaves.next h fun result after => ?_
  cases result with
  | error messages => exact .pure _
  | ok a => exact hnext a after

theorem leaves_lift {work : Session α} (h : work.Leaves .foreign host files engine) :
    (liftM work : Job α).run.Leaves .foreign host files engine := by
  rw [run_lift]
  exact Session.Leaves.next h fun _ _ => .pure _

theorem leaves_ofSession {tried : List String} {work : Session (Except EngineError α)}
    (h : work.Leaves .foreign host files engine) :
    (Job.ofSession tried work).run.Leaves .foreign host files engine := by
  rw [Session.Leaves, onHost_ofSession]
  exact h

/-- What goes on without a record of the program itself does not add to its records. -/
theorem own_bind {work : Job α} {next : α → Job β}
    (h : ∀ a after, (next a).run.Leaves .foreign host files after) :
    (Procedure.onHost host files ((work >>= next).run engine)).1.own =
      (Procedure.onHost host files (work.run engine)).1.own := by
  rw [ExceptT.run_bind, Session.bind_apply, Procedure.onHost_bind, Output.own_append]
  rcases (Procedure.onHost host files (work.run engine)).2 with ⟨fault | messages | a, after⟩
  · exact List.append_nil _
  · exact List.append_nil _
  · exact (congrArg (_ ++ ·) (Output.own_of_foreign (h a after))).trans (List.append_nil _)

/-- Behind the input, the program leaves no record of its own. -/
theorem own_closing : (Procedure.onHost host files ((closing invocation).run engine)).1.own =
    (Procedure.onHost host files ((feed invocation).run engine)).1.own := by
  have hprint (text : String) (engine : Engine) : (printLine text).Leaves .foreign host files engine :=
    Session.leaves_leave (Output.foreign_print _)
  have hindented {engine : Engine} :
      (do return (← get).indented : Session (Except EngineError String)).Leaves .foreign host files
        engine := Session.Leaves.next Output.foreign_empty fun _ _ => .pure _
  refine own_bind fun _ after => ?_
  refine leaves_job_bind (leaves_ofSession hindented) fun text after => ?_
  refine leaves_job_bind (leaves_lift (hprint text after)) fun _ after => ?_
  refine leaves_job_bind Output.foreign_empty fun found after => ?_
  dsimp only
  split
  · exact leaves_lift (Session.leaves_leave (Output.foreign_print _))
  · exact Output.foreign_empty

/-- **The records of the program itself.** If no step fails, the program feeds its prepared engine, and
its records are those of the steps, and of the input. -/
theorem onHost_job (hmanages : Engine.Manages host files
      (invocation.preparation settings limit text) {}) :
    let engine := invocation.prepared settings limit text host files
    (Procedure.onHost host files ((job invocation settings limit text).run {})).2 =
        (Procedure.onHost host files ((closing invocation).run engine)).2 ∧
      (Procedure.onHost host files ((job invocation settings limit text).run {})).1.own =
        (invocation.steps settings limit text).flatMap Step.records ++
          (Procedure.onHost host files ((feed invocation).run engine)).1.own := by
  intro engine
  obtain ⟨hresult, hown⟩ := Step.onHost_before (closing invocation)
    (faithful_steps invocation settings limit text) hmanages
  rw [job_eq, hown, own_closing]
  exact ⟨hresult, rfl⟩

end CommandLine
end Rulebook
