import Rulebook.Proofs.Monitor.Labels
import Mathlib.Order.Nat

/-!
# Which start a stop ends

`Pairs steps i j` says which start a stop ends, by the places of the two in a list of steps and without
a monitor: the start at `i` is the latest one of the label of the stop at `j` that was recorded, has not
been forgotten since (by a disable or a reset) and is not paired with an earlier stop. What one more
step adds is said by `recordsAt_concat`, `remembered_concat`, `pairs_concat`, `waiting_concat` and
`settled_concat`.
-/

namespace Rulebook.Monitor

/-! ### Pairs of places -/

/-- At a place of its run, a monitor that was made disabled records: it was enabled before this place,
and not disabled since. -/
def RecordsAt (steps : List Step) (place : Nat) : Prop :=
  ∃ i < place, steps[i]? = some .enable ∧ ∀ k, i < k → k < place → steps[k]? ≠ some .disable

/-- The start of a phase at `i` was recorded, and nothing was disabled or reset between it and
`place`. -/
structure Remembered (steps : List Step) (phase : RunningPhase) (i place : Nat) : Prop where
  start : steps[i]? = some (.start phase.label phase.start)
  lt : i < place
  recorded : RecordsAt steps i
  kept : ∀ k, i < k → k < place → steps[k]? ≠ some .disable ∧ steps[k]? ≠ some .reset

/-- The stop at `j` could end the start at `i`: the start has the label of the stop and is still
remembered. -/
def Candidate (steps : List Step) (i j : Nat) : Prop :=
  ∃ label start stop, steps[j]? = some (.stop label stop) ∧ Remembered steps ⟨label, start⟩ i j

/-- The stop at `j` ends the start at `i`: the latest candidate that no earlier stop has ended. -/
def Pairs (steps : List Step) (i j : Nat) : Prop :=
  Candidate steps i j ∧ (∀ k, k < j → ¬ Pairs steps i k) ∧
    ∀ later, i < later → Candidate steps later j → ∃ k, ∃ _ : k < j, Pairs steps later k
termination_by j

/-- The phase that started at `i` is still remembered after all steps, and no stop has ended it. -/
def Waiting (steps : List Step) (phase : RunningPhase) (i : Nat) : Prop :=
  Remembered steps phase i steps.length ∧ ∀ j, ¬ Pairs steps i j

/-- A pair of places that no reset has come after. -/
def Settled (steps : List Step) (i j : Nat) : Prop :=
  Pairs steps i j ∧ ∀ k, j < k → steps[k]? ≠ some .reset

/-- A step that is a stop, and the latest start that waits for a stop of its label. -/
def Ends (steps : List Step) (step : Step) (i : Nat) : Prop :=
  ∃ label start stop, step = .stop label stop ∧ Waiting steps ⟨label, start⟩ i ∧
    ∀ later start', i < later → ¬ Waiting steps ⟨label, start'⟩ later

theorem Candidate.lt_length {steps : List Step} {i j : Nat} (h : Candidate steps i j) :
    j < steps.length := by
  obtain ⟨label, start, stop, hstop, -⟩ := h
  exact (List.getElem?_eq_some_iff.mp hstop).1

theorem Candidate.lt {steps : List Step} {i j : Nat} (h : Candidate steps i j) : i < j := by
  obtain ⟨label, start, stop, -, hrem⟩ := h
  exact hrem.lt

theorem Pairs.candidate {steps : List Step} {i j : Nat} (h : Pairs steps i j) :
    Candidate steps i j := by
  rw [Pairs] at h
  exact h.1

/-! ### One more step

What is said of places in a list depends on the steps before these places only. -/

section
variable {steps steps' : List Step} {n : Nat} (h : ∀ k < n, steps[k]? = steps'[k]?)
include h

theorem recordsAt_congr {place : Nat} (hp : place ≤ n) :
    RecordsAt steps place ↔ RecordsAt steps' place := by
  refine exists_congr fun i => and_congr_right fun hi => ?_
  rw [h i (by omega)]
  refine and_congr_right fun _ => forall_congr' fun k => forall_congr' fun _ =>
    forall_congr' fun hk => ?_
  rw [h k (by omega)]

theorem Remembered.congr {phase : RunningPhase} {i place : Nat} (hp : place ≤ n)
    (hr : Remembered steps phase i place) : Remembered steps' phase i place := by
  have hlt := hr.lt
  refine ⟨h i (by omega) ▸ hr.start, hlt, (recordsAt_congr h (by omega)).mp hr.recorded, ?_⟩
  intro k hik hk
  exact h k (by omega) ▸ hr.kept k hik hk

theorem remembered_congr {phase : RunningPhase} {i place : Nat} (hp : place ≤ n) :
    Remembered steps phase i place ↔ Remembered steps' phase i place :=
  ⟨.congr h hp, .congr (fun k hk => (h k hk).symm) hp⟩

theorem candidate_congr {i j : Nat} (hj : j < n) : Candidate steps i j ↔ Candidate steps' i j := by
  refine exists_congr fun label => exists_congr fun start => exists_congr fun stop => ?_
  rw [h j hj, remembered_congr h hj.le]

theorem pairs_congr {i j : Nat} (hj : j < n) : Pairs steps i j ↔ Pairs steps' i j := by
  induction j using Nat.strongRecOn generalizing i with
  | ind j ih =>
    rw [Pairs, Pairs, candidate_congr h hj]
    refine and_congr_right fun _ => and_congr ?_ ?_
    · exact forall_congr' fun k => forall_congr' fun hk => not_congr (ih k hk (by omega))
    · refine forall_congr' fun later => forall_congr' fun _ => ?_
      rw [candidate_congr h hj]
      exact forall_congr' fun _ => exists_congr fun k => exists_congr fun hk => ih k hk (by omega)

end

section
variable {steps : List Step} {step : Step}

theorem getElem?_concat_of_lt {k : Nat} (hk : k < steps.length) :
    steps[k]? = (steps ++ [step])[k]? := (List.getElem?_append_left hk).symm

/-- After one more step a monitor records if this step enables it, or if it did and still does. -/
theorem recordsAt_concat :
    RecordsAt (steps ++ [step]) (steps.length + 1) ↔
      step = .enable ∨ RecordsAt steps steps.length ∧ step ≠ .disable := by
  constructor
  · rintro ⟨i, hi, hen, hdis⟩
    obtain hi | rfl : i < steps.length ∨ i = steps.length := by omega
    · refine .inr ⟨⟨i, hi, by rwa [getElem?_concat_of_lt hi], fun k hik hk => ?_⟩, ?_⟩
      · rw [getElem?_concat_of_lt hk]
        exact hdis k hik (by omega)
      · simpa using hdis steps.length hi (by omega)
    · exact .inl (by simpa using hen)
  · rintro (rfl | ⟨⟨i, hi, hen, hdis⟩, hstep⟩)
    · exact ⟨steps.length, by omega, by simp, fun k hik hk => by omega⟩
    · refine ⟨i, by omega, by rwa [← getElem?_concat_of_lt hi], fun k hik hk => ?_⟩
      obtain hk | rfl : k < steps.length ∨ k = steps.length := by omega
      · rw [← getElem?_concat_of_lt hk]
        exact hdis k hik hk
      · simpa using hstep

/-- After one more step a start is remembered if it is this step and is recorded, or if it was
remembered and the step neither disables nor resets. -/
theorem remembered_concat {phase : RunningPhase} {i : Nat} :
    Remembered (steps ++ [step]) phase i (steps.length + 1) ↔
      (step = .start phase.label phase.start ∧ i = steps.length ∧ RecordsAt steps steps.length) ∨
      Remembered steps phase i steps.length ∧ step ≠ .disable ∧ step ≠ .reset := by
  have hsame : ∀ k < steps.length, steps[k]? = (steps ++ [step])[k]? :=
    fun k hk => getElem?_concat_of_lt hk
  constructor
  · intro hr
    obtain hi | rfl : i < steps.length ∨ i = steps.length := by have := hr.lt; omega
    · refine .inr ⟨⟨hsame i hi ▸ hr.start, hi, (recordsAt_congr hsame hi.le).mpr hr.recorded, ?_⟩, ?_⟩
      · intro k hik hk
        exact hsame k hk ▸ hr.kept k hik (by omega)
      · simpa using hr.kept steps.length hi (by omega)
    · exact .inl ⟨by simpa using hr.start, rfl, (recordsAt_congr hsame le_rfl).mpr hr.recorded⟩
  · rintro (⟨rfl, rfl, hrec⟩ | ⟨hr, hstep⟩)
    · exact ⟨by simp, by omega, (recordsAt_congr hsame le_rfl).mp hrec, fun k hik hk => by omega⟩
    · have hi := hr.lt
      refine ⟨hsame i hi ▸ hr.start, by omega, (recordsAt_congr hsame hi.le).mp hr.recorded, ?_⟩
      intro k hik hk
      obtain hk | rfl : k < steps.length ∨ k = steps.length := by omega
      · exact hsame k hk ▸ hr.kept k hik hk
      · simpa using hstep

/-- One more step adds the pair of a stop and the start that it ends. -/
theorem pairs_concat {i j : Nat} :
    Pairs (steps ++ [step]) i j ↔ Pairs steps i j ∨ j = steps.length ∧ Ends steps step i := by
  have hsame : ∀ k < steps.length, steps[k]? = (steps ++ [step])[k]? :=
    fun k hk => getElem?_concat_of_lt hk
  -- the pairs before the new step are those of the shorter list
  have hold : ∀ {i j}, j < steps.length → (Pairs (steps ++ [step]) i j ↔ Pairs steps i j) :=
    fun hj => (pairs_congr hsame hj).symm
  have hnone : ∀ {i}, (∀ k, k < steps.length → ¬ Pairs (steps ++ [step]) i k) ↔
      ∀ k, ¬ Pairs steps i k :=
    ⟨fun hall k hk => hall k hk.candidate.lt_length ((hold hk.candidate.lt_length).mpr hk),
      fun hall k hk hp => hall k ((hold hk).mp hp)⟩
  -- candidates for the new step are those that are remembered under its label
  have hcand : ∀ {i}, Candidate (steps ++ [step]) i steps.length ↔
      ∃ label start stop, step = .stop label stop ∧ Remembered steps ⟨label, start⟩ i steps.length := by
    intro i
    simp only [Candidate, List.getElem?_concat_length, Option.some.injEq,
      ← remembered_congr hsame le_rfl]
  obtain hj | rfl | hj := Nat.lt_trichotomy j steps.length
  · rw [hold hj]
    simp [hj.ne]
  · have hbefore : ¬ Pairs steps i steps.length := fun hp => absurd hp.candidate.lt_length (by omega)
    rw [Pairs, hcand, hnone]
    simp only [hbefore, false_or, true_and]
    constructor
    · rintro ⟨⟨label, start, stop, rfl, hr⟩, hfree, hlatest⟩
      refine ⟨label, start, stop, rfl, ⟨hr, hfree⟩, fun later start' hlt hw => ?_⟩
      obtain ⟨k, hk, hp⟩ := hlatest later hlt (hcand.mpr ⟨label, start', stop, rfl, hw.1⟩)
      exact hw.2 k ((hold hk).mp hp)
    · rintro ⟨label, start, stop, rfl, hw, hlatest⟩
      refine ⟨⟨label, start, stop, rfl, hw.1⟩, hw.2, fun later hlt hc => ?_⟩
      obtain ⟨label', start', stop', heq, hr⟩ := hcand.mp hc
      obtain ⟨rfl, rfl⟩ : label = label' ∧ stop = stop' := by simpa using heq
      by_contra hno
      exact hlatest later start' hlt ⟨hr, hnone.mp fun k hk hp => hno ⟨k, hk, hp⟩⟩
  · have hbefore : ¬ Pairs steps i j := fun hp => absurd hp.candidate.lt_length (by omega)
    have hafter : ¬ Pairs (steps ++ [step]) i j := fun hp => by
      have := hp.candidate.lt_length
      rw [List.length_append, List.length_singleton] at this
      omega
    simp [hbefore, hafter, hj.ne']

/-- After one more step a phase waits if it starts with this step and is recorded, or if it did wait
and the step neither makes the monitor forget it nor ends it. -/
theorem waiting_concat {phase : RunningPhase} {i : Nat} :
    Waiting (steps ++ [step]) phase i ↔
      (step = .start phase.label phase.start ∧ i = steps.length ∧ RecordsAt steps steps.length) ∨
      Waiting steps phase i ∧ step ≠ .disable ∧ step ≠ .reset ∧ ¬ Ends steps step i := by
  have hpairs : (∀ j, ¬ Pairs (steps ++ [step]) i j) ↔
      (∀ j, ¬ Pairs steps i j) ∧ ¬ Ends steps step i := by
    simp [pairs_concat, not_or, forall_and]
  rw [Waiting, List.length_append, List.length_singleton, remembered_concat, hpairs]
  constructor
  · rintro ⟨hnew | ⟨hr, hdis, hres⟩, hfree, hends⟩
    · exact .inl hnew
    · exact .inr ⟨⟨hr, hfree⟩, hdis, hres, hends⟩
  · rintro (⟨rfl, rfl, hrec⟩ | ⟨⟨hr, hfree⟩, hdis, hres, hends⟩)
    · refine ⟨.inl ⟨rfl, rfl, hrec⟩, fun j hp => ?_, ?_⟩
      · have := hp.candidate
        exact absurd this.lt_length (by have := this.lt; omega)
      · rintro ⟨label, start, stop, hstep, -⟩
        exact absurd hstep (by simp)
    · exact ⟨.inr ⟨hr, hdis, hres⟩, hfree, hends⟩

/-- A reset settles nothing; any other step leaves what is settled, and adds the pair that it ends. -/
theorem settled_concat {i j : Nat} :
    Settled (steps ++ [step]) i j ↔
      step ≠ .reset ∧ (Settled steps i j ∨ j = steps.length ∧ Ends steps step i) := by
  have hreset : ∀ {j}, j < steps.length → ((∀ k, j < k → (steps ++ [step])[k]? ≠ some .reset) ↔
      step ≠ .reset ∧ ∀ k, j < k → steps[k]? ≠ some .reset) := by
    intro j hj
    refine ⟨fun hall => ⟨by simpa using hall steps.length hj, fun k hk hr => ?_⟩, ?_⟩
    · have hlt := (List.getElem?_eq_some_iff.mp hr).1
      exact hall k hk (by rwa [← getElem?_concat_of_lt hlt])
    · rintro ⟨hstep, hall⟩ k hk hr
      obtain hlt | rfl | hgt := Nat.lt_trichotomy k steps.length
      · exact hall k hk (by rwa [getElem?_concat_of_lt hlt])
      · exact hstep (by simpa using hr)
      · rw [List.getElem?_eq_none (by simp; omega)] at hr
        exact absurd hr (by simp)
  rw [Settled, pairs_concat]
  constructor
  · rintro ⟨hp | ⟨rfl, hends⟩, hall⟩
    · obtain ⟨hstep, hall⟩ := (hreset hp.candidate.lt_length).mp hall
      exact ⟨hstep, .inl ⟨hp, hall⟩⟩
    · obtain ⟨label, start, stop, rfl, -⟩ := id hends
      exact ⟨by simp, .inr ⟨rfl, hends⟩⟩
  · rintro ⟨hstep, ⟨hp, hall⟩ | ⟨rfl, hends⟩⟩
    · exact ⟨.inl hp, (hreset hp.candidate.lt_length).mpr ⟨hstep, hall⟩⟩
    · refine ⟨.inr ⟨rfl, hends⟩, fun k hk hr => ?_⟩
      rw [List.getElem?_eq_none (by simp; omega)] at hr
      exact absurd hr (by simp)

end

end Rulebook.Monitor
