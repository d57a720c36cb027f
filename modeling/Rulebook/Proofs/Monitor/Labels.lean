import Rulebook.Monitor
import Mathlib.Data.List.Basic

/-!
# The labels of a monitor are apart

A run of a monitor is a list of steps, each at the time that the clock shows. What a monitor knows of
one label (`only`) changes with the steps that concern this label in the way in which the monitor
changes, and not at all with the others. So a run can be projected to a label (`only_run`): the
markers of a label are those of the run without the starts and the stops of all other labels.
-/

namespace Rulebook.Monitor

/-- What can be asked of a monitor. A phase starts or stops at the time of the clock. -/
inductive Step where
  | enable
  | disable
  | reset
  | start (label : String) (time : Nat)
  | stop (label : String) (time : Nat)
  deriving Repr, DecidableEq

/-- The monitor after a step. -/
def apply (monitor : Monitor) : Step → Monitor
  | .enable => monitor.enable
  | .disable => monitor.disable
  | .reset => monitor.reset
  | .start label time => monitor.start label time
  | .stop label time => (monitor.stop label time).1

/-- The monitor after a list of steps. -/
def run (monitor : Monitor) (steps : List Step) : Monitor := steps.foldl apply monitor

@[simp]
theorem run_nil (monitor : Monitor) : run monitor [] = monitor := rfl

@[simp]
theorem run_cons (monitor : Monitor) (step : Step) (rest : List Step) :
    run monitor (step :: rest) = run (monitor.apply step) rest := rfl

theorem run_append (monitor : Monitor) (first second : List Step) :
    run monitor (first ++ second) = run (run monitor first) second := List.foldl_append

/-- Whether a step matters for a label: all do but the starts and the stops of other labels. -/
def Step.concerns (label : String) : Step → Bool
  | .start other _ | .stop other _ => other = label
  | _ => true

/-- What a monitor knows of a label. -/
def only (label : String) (monitor : Monitor) : Monitor :=
  { monitor with
      running := monitor.running.filter (·.label = label)
      markers := monitor.markers.filter (·.label = label) }

/-! ### The phase that stops -/

/-- The phase that is taken is the most recent one of the label; the others stay in their order. -/
theorem takeRunning_eq_some_iff {label : String} {running others : List RunningPhase}
    {phase : RunningPhase} :
    takeRunning label running = some (phase, others) ↔
      ∃ later earlier, running = later ++ phase :: earlier ∧ others = later ++ earlier ∧
        phase.label = label ∧ ∀ other ∈ later, other.label ≠ label := by
  induction running generalizing others with
  | nil => simp [takeRunning]
  | cons first rest ih =>
    -- the first phase is the one, or it stays in front of what is left
    rw [takeRunning]
    split
    case isTrue hl =>
      constructor
      · intro h
        obtain ⟨rfl, rfl⟩ : first = phase ∧ rest = others := by simpa using h
        exact ⟨[], rest, rfl, rfl, hl, by simp⟩
      · rintro ⟨later, earlier, hrun, rfl, hp, hlater⟩
        cases later with
        | nil =>
          obtain ⟨rfl, rfl⟩ : first = phase ∧ rest = earlier := by simpa using hrun
          rfl
        | cons top later =>
          obtain ⟨rfl, -⟩ : first = top ∧ rest = later ++ phase :: earlier := by simpa using hrun
          exact absurd hl (hlater first (by simp))
    case isFalse hl =>
      simp only [Option.map_eq_some_iff, Prod.mk.injEq, Prod.exists]
      constructor
      · rintro ⟨found, left, h, rfl, rfl⟩
        obtain ⟨later, earlier, rfl, rfl, hp, hlater⟩ := ih.mp h
        exact ⟨first :: later, earlier, rfl, rfl, hp, by simpa [hl] using hlater⟩
      · rintro ⟨later, earlier, hrun, rfl, hp, hlater⟩
        cases later with
        | nil =>
          obtain ⟨rfl, -⟩ : first = phase ∧ rest = earlier := by simpa using hrun
          exact absurd hp hl
        | cons top later =>
          obtain ⟨rfl, rfl⟩ : first = top ∧ rest = later ++ phase :: earlier := by simpa using hrun
          exact ⟨phase, later ++ earlier,
            ih.mpr ⟨later, earlier, rfl, rfl, hp, fun other h => hlater other (by simp [h])⟩, rfl, rfl⟩

/-- No phase is taken if none of the label is running. -/
theorem takeRunning_eq_none_iff {label : String} {running : List RunningPhase} :
    takeRunning label running = none ↔ ∀ phase ∈ running, phase.label ≠ label := by
  induction running with
  | nil => simp [takeRunning]
  | cons first rest ih =>
    by_cases hl : first.label = label <;> simp [takeRunning, hl, ih]

/-- Every stop finds no phase of its label or the most recent one. -/
theorem takeRunning_cases (label : String) (running : List RunningPhase) :
    (takeRunning label running = none ∧ ∀ phase ∈ running, phase.label ≠ label) ∨
      ∃ later phase earlier, running = later ++ phase :: earlier ∧ phase.label = label ∧
        (∀ other ∈ later, other.label ≠ label) ∧
        takeRunning label running = some (phase, later ++ earlier) := by
  cases h : takeRunning label running with
  | none => exact .inl ⟨rfl, takeRunning_eq_none_iff.mp h⟩
  | some taken =>
    obtain ⟨phase, others⟩ := taken
    obtain ⟨later, earlier, rfl, rfl, hp, hlater⟩ := takeRunning_eq_some_iff.mp h
    exact .inr ⟨later, phase, earlier, rfl, hp, hlater, rfl⟩

/-- Among the phases of its label a stop finds the same one, as in the whole list. -/
theorem takeRunning_filter (label : String) (running : List RunningPhase) :
    takeRunning label (running.filter (·.label = label)) =
      (takeRunning label running).map fun (phase, others) =>
        (phase, others.filter (·.label = label)) := by
  obtain ⟨hnone, hall⟩ | ⟨later, phase, earlier, rfl, hp, hlater, hsome⟩ :=
    takeRunning_cases label running
  · rw [hnone, Option.map_none, takeRunning_eq_none_iff]
    intro phase h
    exact absurd (by simpa using (List.mem_filter.mp h).2) (hall phase (List.mem_filter.mp h).1)
  · rw [hsome, Option.map_some]
    have hdrop : later.filter (·.label = label) = [] := by simpa using hlater
    simp [hp, hdrop, takeRunning]

/-! ### Projecting a run -/

/-- A step that concerns a label changes what is known of the label as it changes the monitor. -/
theorem only_apply_of_concerns {label : String} {step : Step} (h : step.concerns label)
    (monitor : Monitor) : (monitor.apply step).only label = (monitor.only label).apply step := by
  obtain ⟨enabled, running, markers⟩ := monitor
  cases step with
  | enable | disable | reset => rfl
  | start other time =>
    obtain rfl : other = label := by simpa [Step.concerns] using h
    cases enabled <;> simp [apply, start, only]
  | stop other time =>
    obtain rfl : other = label := by simpa [Step.concerns] using h
    obtain ⟨hnone, -⟩ | ⟨later, phase, earlier, -, hp, -, hsome⟩ := takeRunning_cases other running
    · cases enabled <;> simp [apply, stop, only, takeRunning_filter, hnone]
    · cases enabled <;> simp [apply, stop, only, takeRunning_filter, hsome, hp]

/-- A start or a stop of another label changes nothing that is known of the label. -/
theorem only_apply_of_not_concerns {label : String} {step : Step} (h : ¬ step.concerns label)
    (monitor : Monitor) : (monitor.apply step).only label = monitor.only label := by
  obtain ⟨enabled, running, markers⟩ := monitor
  cases step with
  | enable | disable | reset => exact absurd rfl h
  | start other time =>
    have hne : other ≠ label := by simpa [Step.concerns] using h
    cases enabled <;> simp [apply, start, only, hne]
  | stop other time =>
    have hne : other ≠ label := by simpa [Step.concerns] using h
    obtain ⟨hnone, -⟩ | ⟨later, phase, earlier, rfl, hp, -, hsome⟩ :=
      takeRunning_cases other running
    · cases enabled <;> simp [apply, stop, only, hnone]
    · cases enabled <;> simp [apply, stop, only, hsome, hp, hne]

/-- What a run knows of a label in the end is what the run without the starts and stops of other
labels knows of it. -/
theorem only_run (label : String) (monitor : Monitor) (steps : List Step) :
    (run monitor steps).only label = run (monitor.only label) (steps.filter (·.concerns label)) := by
  induction steps generalizing monitor with
  | nil => rfl
  | cons step rest ih =>
    by_cases h : step.concerns label
    · rw [List.filter_cons_of_pos h, run_cons, run_cons, ih, only_apply_of_concerns h]
    · rw [List.filter_cons_of_neg h, run_cons, ih, only_apply_of_not_concerns h]

/-- The markers of a label are all markers of the run without the other labels. -/
theorem filter_markers_run (label : String) (steps : List Step) :
    (run {} steps).markers.filter (·.label = label) =
      (run {} (steps.filter (·.concerns label))).markers :=
  congrArg Monitor.markers (only_run label {} steps)

end Rulebook.Monitor
