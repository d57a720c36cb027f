import Rulebook.Proofs.Monitor.Pairing
import Mathlib.Data.List.Forall2
import Mathlib.Data.List.Induction
import Mathlib.Tactic.IntervalCases

/-!
# What a monitor keeps track of

A monitor that runs through a list of steps keeps track of exactly the pairs that the steps make
(`tracks_run`): its running phases are the starts that still wait for their stop, the most recent one
first, and its markers are the pairs since the last reset, in the order of the stops. One step keeps a
monitor on this track (`Tracks.apply`); a stop ends a phase or changes nothing (`Tracks.stop_cases`).
-/

namespace Rulebook.Monitor

/-- The marker of a pair of places: the label of both, the time of the start and that of the stop. -/
def MarkedAt (steps : List Step) (marker : Marker) (places : Nat × Nat) : Prop :=
  steps[places.1]? = some (.start marker.label marker.start) ∧
    steps[places.2]? = some (.stop marker.label marker.stop)

/-- The settled pairs of a list of steps, in the order of their stops. -/
structure Settlement (steps : List Step) (places : List (Nat × Nat)) : Prop where
  mem_iff : ∀ i j, (i, j) ∈ places ↔ Settled steps i j
  increasing : places.Pairwise fun first second => first.2 < second.2

/-- The phases that wait, each with the place of its start, the most recent one first. -/
structure Queue (steps : List Step) (pending : List (Nat × RunningPhase)) : Prop where
  mem_iff : ∀ i phase, (i, phase) ∈ pending ↔ Waiting steps phase i
  decreasing : pending.Pairwise fun first second => second.1 < first.1

/-- A monitor that has gone through the steps: it is enabled if it records, its running phases are
those that wait, its markers those of the settled pairs. -/
structure Tracks (steps : List Step) (monitor : Monitor) : Prop where
  enabled : monitor.enabled = true ↔ RecordsAt steps steps.length
  running : ∃ pending, Queue steps pending ∧ monitor.running = pending.map Prod.snd
  markers : ∃ places, Settlement steps places ∧
    List.Forall₂ (MarkedAt steps) monitor.markers places

section
variable {steps : List Step} {step : Step}

theorem MarkedAt.concat {marker : Marker} {places : Nat × Nat} (h : MarkedAt steps marker places) :
    MarkedAt (steps ++ [step]) marker places := by
  have hstart := (List.getElem?_eq_some_iff.mp h.1).1
  have hstop := (List.getElem?_eq_some_iff.mp h.2).1
  exact ⟨getElem?_concat_of_lt hstart ▸ h.1, getElem?_concat_of_lt hstop ▸ h.2⟩

theorem forall₂_markedAt_concat {markers : List Marker} {places : List (Nat × Nat)}
    (h : List.Forall₂ (MarkedAt steps) markers places) :
    List.Forall₂ (MarkedAt (steps ++ [step])) markers places :=
  h.imp fun _ _ hm => hm.concat

/-- Without a start that it ends, a step other than a reset leaves the settled pairs. -/
theorem Settlement.same {places : List (Nat × Nat)} (h : Settlement steps places)
    (hreset : step ≠ .reset) (hends : ∀ i, ¬ Ends steps step i) :
    Settlement (steps ++ [step]) places :=
  ⟨fun i j => by simp [settled_concat, hreset, hends, h.mem_iff], h.increasing⟩

/-- A step that ends a start settles their pair after all others. -/
theorem Settlement.add {places : List (Nat × Nat)} (h : Settlement steps places) {i : Nat}
    (hends : ∀ place, Ends steps step place ↔ place = i) :
    Settlement (steps ++ [step]) (places ++ [(i, steps.length)]) := by
  obtain ⟨label, start, stop, rfl, -⟩ := (hends i).mpr rfl
  refine ⟨fun i' j => ?_, List.pairwise_append.mpr ⟨h.increasing, by simp, ?_⟩⟩
  · rw [settled_concat, hends, List.mem_append, h.mem_iff]
    simp [and_comm]
  · rintro ⟨first, second⟩ hin last hlast
    obtain rfl := List.mem_singleton.mp hlast
    exact ((h.mem_iff _ _).mp hin).1.candidate.lt_length

/-- Without a start that it ends, a step that forgets nothing and starts nothing leaves the phases that
wait. -/
theorem Queue.same {pending : List (Nat × RunningPhase)} (h : Queue steps pending)
    (hdisable : step ≠ .disable) (hreset : step ≠ .reset) (hends : ∀ i, ¬ Ends steps step i)
    (hstart : ∀ label time, step = .start label time → ¬ RecordsAt steps steps.length) :
    Queue (steps ++ [step]) pending := by
  refine ⟨fun i phase => ?_, h.decreasing⟩
  rw [h.mem_iff, waiting_concat]
  simp only [hdisable, hreset, hends, ne_eq, not_false_eq_true, and_true]
  exact ⟨.inr, fun h => h.resolve_left fun ⟨hs, _, hrec⟩ => hstart _ _ hs hrec⟩

/-- Only a stop ends a start. -/
theorem not_ends (h : ∀ label time, step ≠ .stop label time) (i : Nat) : ¬ Ends steps step i := by
  rintro ⟨label, start, stop, hstep, -⟩
  exact h label stop hstep

/-- A monitor that records nothing has nothing that waits. -/
theorem Waiting.recordsAt {phase : RunningPhase} {i : Nat} (h : Waiting steps phase i) :
    RecordsAt steps steps.length := by
  obtain ⟨e, he, hen, hdis⟩ := h.1.recorded
  have hi := h.1.lt
  refine ⟨e, by omega, hen, fun k hek hk => ?_⟩
  obtain hlt | rfl | hgt := Nat.lt_trichotomy k i
  · exact hdis k hek hlt
  · simp [h.1.start]
  · exact (h.1.kept k hgt hk).1

/-- The most recent phase of a label among those that wait is the one that a stop ends; without it,
the others keep waiting in their order. -/
theorem Queue.ends {later earlier : List (Nat × RunningPhase)} {i : Nat} {phase : RunningPhase}
    (h : Queue steps (later ++ (i, phase) :: earlier)) {time : Nat}
    (hlater : ∀ other ∈ later, other.2.label ≠ phase.label) (place : Nat) :
    Ends steps (.stop phase.label time) place ↔ place = i := by
  have hdec := h.decreasing
  simp only [List.pairwise_append, List.pairwise_cons, List.mem_cons] at hdec
  obtain ⟨-, ⟨hearlier, -⟩, hbefore⟩ := hdec
  have hmem : Waiting steps phase i := (h.mem_iff i phase).mp (by simp)
  constructor
  · rintro ⟨label, start, stop, hstep, hw, hlatest⟩
    obtain ⟨rfl, rfl⟩ : phase.label = label ∧ time = stop := by simpa using hstep
    have hin := (h.mem_iff place _).mpr hw
    rw [List.mem_append, List.mem_cons] at hin
    obtain hin | heq | hin := hin
    · exact absurd rfl (hlater _ hin)
    · exact congrArg Prod.fst heq
    · exact absurd hmem (hlatest i phase.start (hearlier _ hin))
  · rintro rfl
    refine ⟨phase.label, phase.start, time, rfl, hmem, fun after start' hlt hw => ?_⟩
    have hin := (h.mem_iff after _).mpr hw
    rw [List.mem_append, List.mem_cons] at hin
    obtain hin | heq | hin := hin
    · exact hlater _ hin rfl
    · exact absurd (congrArg Prod.fst heq) hlt.ne'
    · exact absurd (hearlier _ hin) (by simp; omega)

/-- Without the phase that a stop ends, the others keep waiting in their order. -/
theorem Queue.remove {later earlier : List (Nat × RunningPhase)} {i : Nat} {phase : RunningPhase}
    (h : Queue steps (later ++ (i, phase) :: earlier)) {time : Nat}
    (hlater : ∀ other ∈ later, other.2.label ≠ phase.label) :
    Queue (steps ++ [.stop phase.label time]) (later ++ earlier) := by
  have hdec := h.decreasing
  refine ⟨fun k other => ?_, hdec.sublist (by simp)⟩
  have hne : ∀ other, (k, other) ∈ later ++ earlier → k ≠ i := by
    simp only [List.pairwise_append, List.pairwise_cons, List.mem_cons] at hdec
    obtain ⟨-, ⟨hearlier, -⟩, hbefore⟩ := hdec
    rintro other hin rfl
    obtain hin | hin := List.mem_append.mp hin
    · exact absurd (hbefore _ hin _ (.inl rfl)) (by simp)
    · exact absurd (hearlier _ hin) (by simp)
  rw [waiting_concat, ← h.mem_iff, h.ends hlater]
  constructor
  · intro hin
    refine .inr ⟨?_, by simp, by simp, hne other hin⟩
    rw [List.mem_append, List.mem_cons]
    exact (List.mem_append.mp hin).imp_right .inr
  · rintro (⟨hstep, -⟩ | ⟨hin, -, -, hk⟩)
    · exact absurd hstep (by simp)
    · rw [List.mem_append, List.mem_cons] at hin
      obtain hin | heq | hin := hin
      · exact List.mem_append_left _ hin
      · exact absurd (congrArg Prod.fst heq) hk
      · exact List.mem_append_right _ hin

/-- A recorded start waits before all others. -/
theorem Queue.add {pending : List (Nat × RunningPhase)} (h : Queue steps pending)
    (hrec : RecordsAt steps steps.length) (label : String) (time : Nat) :
    Queue (steps ++ [.start label time]) ((steps.length, ⟨label, time⟩) :: pending) := by
  have hends : ∀ i, ¬ Ends steps (.start label time) i := not_ends (by simp)
  refine ⟨fun i phase => ?_, List.pairwise_cons.mpr ⟨fun other hin => ?_, h.decreasing⟩⟩
  · rw [waiting_concat, List.mem_cons, h.mem_iff]
    simp only [Prod.mk.injEq, Step.start.injEq, ne_eq, reduceCtorEq, not_false_eq_true, hrec,
      and_true, hends]
    refine or_congr_left ?_
    constructor
    · rintro ⟨rfl, rfl⟩
      exact ⟨⟨rfl, rfl⟩, rfl⟩
    · rintro ⟨⟨rfl, rfl⟩, rfl⟩
      exact ⟨rfl, rfl⟩
  · exact ((h.mem_iff other.1 other.2).mp hin).1.lt

/-- A stop changes nothing and there is no start that it ends, or it ends the most recent phase of its
label and leaves a marker. -/
theorem Tracks.stop_cases {monitor : Monitor} (h : Tracks steps monitor) (label : String)
    (time : Nat) :
    (monitor.apply (.stop label time) = monitor ∧ ∀ i, ¬ Ends steps (.stop label time) i) ∨
      ∃ later i phase earlier, Queue steps (later ++ (i, phase) :: earlier) ∧ phase.label = label ∧
        (∀ other ∈ later, other.2.label ≠ phase.label) ∧
        monitor.apply (.stop label time) =
          { monitor with
              running := (later ++ earlier).map Prod.snd
              markers := monitor.markers ++ [⟨phase.label, phase.start, time⟩] } := by
  obtain ⟨henabled, ⟨pending, hqueue, hrun⟩, -⟩ := h
  by_cases hen : monitor.enabled
  · obtain ⟨hnone, hall⟩ | ⟨later, phase, earlier, hsplit, hp, hlater, hsome⟩ :=
      takeRunning_cases label monitor.running
    · refine .inl ⟨by simp [Monitor.apply, stop, hen, hnone], ?_⟩
      rintro i ⟨label', start, time', hstep, hw, -⟩
      obtain ⟨rfl, rfl⟩ : label = label' ∧ time = time' := by simpa using hstep
      refine hall ⟨label, start⟩ ?_ rfl
      rw [hrun]
      exact List.mem_map_of_mem ((hqueue.mem_iff i _).mpr hw)
    · rw [hrun] at hsplit
      obtain ⟨later', rest, rfl, rfl, hrest⟩ := List.map_eq_append_iff.mp hsplit
      obtain ⟨⟨i, phase⟩, earlier', rfl, rfl, rfl⟩ := List.map_eq_cons_iff.mp hrest
      refine .inr ⟨later', i, phase, earlier', hqueue, hp, fun other hin => ?_, ?_⟩
      · rw [hp]
        exact hlater other.2 (List.mem_map_of_mem hin)
      · simp [Monitor.apply, stop, hen, hsome]
  · refine .inl ⟨by simp [Monitor.apply, stop, hen], ?_⟩
    rintro i ⟨label', start, time', hstep, hw, -⟩
    exact hen (henabled.mpr hw.recordsAt)

/-- A step that ends no start and leaves the phases that wait keeps a monitor on the track if it leaves
its phases and markers. -/
theorem Tracks.same {monitor next : Monitor} (h : Tracks steps monitor)
    (hdisable : step ≠ .disable) (hreset : step ≠ .reset) (hends : ∀ i, ¬ Ends steps step i)
    (hstart : ∀ label time, step = .start label time → ¬ RecordsAt steps steps.length)
    (henabled : next.enabled = true ↔ step = .enable ∨ monitor.enabled = true)
    (hrunning : next.running = monitor.running) (hmarkers : next.markers = monitor.markers) :
    Tracks (steps ++ [step]) next := by
  obtain ⟨hrecords, ⟨pending, hqueue, hrun⟩, places, hsettled, hmarked⟩ := h
  refine ⟨?_, ⟨pending, hqueue.same hdisable hreset hends hstart, hrunning.trans hrun⟩,
    places, hsettled.same hreset hends, hmarkers ▸ forall₂_markedAt_concat hmarked⟩
  rw [List.length_append, List.length_singleton, recordsAt_concat, henabled, hrecords]
  simp [hdisable]

/-- One step keeps a monitor on the track of its steps. -/
theorem Tracks.apply {monitor : Monitor} (h : Tracks steps monitor) (step : Step) :
    Tracks (steps ++ [step]) (monitor.apply step) := by
  obtain ⟨henabled, ⟨pending, hqueue, hrun⟩, places, hsettled, hmarked⟩ := id h
  have hlength : (steps ++ [step]).length = steps.length + 1 := by simp
  cases step with
  | enable =>
    exact h.same (by simp) (by simp) (not_ends (by simp)) (by simp) (by simp [Monitor.apply, enable])
      rfl rfl
  | disable =>
    refine ⟨by rw [hlength, recordsAt_concat]; simp [Monitor.apply, disable], ⟨[], ⟨?_, .nil⟩, rfl⟩,
      places, hsettled.same (by simp) (not_ends (by simp)), forall₂_markedAt_concat hmarked⟩
    simp [waiting_concat]
  | reset =>
    refine ⟨by rw [hlength, recordsAt_concat]; simpa [Monitor.apply, reset] using henabled,
      ⟨[], ⟨?_, .nil⟩, rfl⟩, [], ⟨?_, .nil⟩, .nil⟩
    · simp [waiting_concat]
    · simp [settled_concat]
  | start label time =>
    have hends : ∀ i, ¬ Ends steps (.start label time) i := not_ends (by simp)
    -- a monitor that is not enabled does not notice the start
    by_cases hen : monitor.enabled
    · have hnext : monitor.apply (.start label time) =
          { monitor with running := ⟨label, time⟩ :: monitor.running } := by
        simp [Monitor.apply, start, hen]
      rw [hnext]
      refine ⟨by rw [hlength, recordsAt_concat]; simpa using henabled,
        ⟨_, hqueue.add (henabled.mp hen) label time, by simp [hrun]⟩,
        places, hsettled.same (by simp) hends, forall₂_markedAt_concat hmarked⟩
    · have hrec : ¬ RecordsAt steps steps.length := fun hrec => hen (henabled.mpr hrec)
      have hsame : monitor.apply (.start label time) = monitor := by simp [Monitor.apply, start, hen]
      rw [hsame]
      exact h.same (by simp) (by simp) hends (fun _ _ _ => hrec) (by simp) rfl rfl
  | stop label time =>
    -- no phase of the label is running, or the most recent one stops
    obtain ⟨hsame, hends⟩ | ⟨later, i, phase, earlier, hqueue, rfl, hlater, hnext⟩ :=
      h.stop_cases label time
    · rw [hsame]
      exact h.same (by simp) (by simp) hends (by simp) (by simp) rfl rfl
    · have hstart := ((hqueue.mem_iff i phase).mp (by simp)).1
      rw [hnext]
      refine ⟨by rw [hlength, recordsAt_concat]; simpa using henabled,
        ⟨later ++ earlier, hqueue.remove hlater, rfl⟩, places ++ [(i, steps.length)],
        hsettled.add (hqueue.ends hlater), ?_⟩
      refine List.rel_append (forall₂_markedAt_concat hmarked) (.cons ⟨?_, by simp⟩ .nil)
      exact getElem?_concat_of_lt hstart.lt ▸ hstart.start

end

/-- A new monitor is on the track of all steps that it is asked for. -/
theorem tracks_run (steps : List Step) : Tracks steps (run {} steps) := by
  induction steps using List.reverseRecOn with
  | nil =>
    have hpairs : ∀ i j, ¬ Pairs [] i j := fun i j hp => by simpa using hp.candidate.lt_length
    refine ⟨by simp [RecordsAt], ⟨[], ⟨fun i phase => ?_, .nil⟩, rfl⟩, [], ⟨fun i j => ?_, .nil⟩, .nil⟩
    · refine ⟨fun h => absurd h (by simp), fun h => ?_⟩
      simpa using h.1.start
    · simp [Settled, hpairs]
  | append_singleton steps step ih =>
    rw [run_append, run_cons, run_nil]
    exact ih.apply step

/-! ### Recorded markers -/

/-- A monitor is enabled at a place of its run if the steps say that it records there. -/
theorem enabled_run_take {steps : List Step} {place : Nat} (h : place ≤ steps.length) :
    (run {} (steps.take place)).enabled = true ↔ RecordsAt steps place := by
  have hlength : (steps.take place).length = place := List.length_take_of_le h
  have hrec := (tracks_run (steps.take place)).enabled
  rw [hlength] at hrec
  exact hrec.trans (recordsAt_congr (fun k hk => List.getElem?_take_of_lt hk) le_rfl)

/-- While a monitor is disabled no phase is pending. -/
theorem running_run_of_disabled {steps : List Step} (h : (run {} steps).enabled = false) :
    (run {} steps).running = [] := by
  obtain ⟨henabled, ⟨pending, hqueue, hrun⟩, -⟩ := tracks_run steps
  cases pending with
  | nil => exact hrun
  | cons first rest =>
    have hw := (hqueue.mem_iff first.1 first.2).mp (by simp)
    exact absurd (henabled.mpr hw.recordsAt) (by simp [h])

/-- A stop that ends no start changes nothing. -/
theorem run_take_succ_of_unpaired {steps : List Step} {label : String} {j time : Nat}
    (hstop : steps[j]? = some (.stop label time)) (hfree : ∀ i, ¬ Pairs steps i j) :
    run {} (steps.take (j + 1)) = run {} (steps.take j) := by
  have hj : j < steps.length := (List.getElem?_eq_some_iff.mp hstop).1
  have hlength : (steps.take j).length = j := List.length_take_of_le hj.le
  have htake : steps.take (j + 1) = steps.take j ++ [.stop label time] := by
    rw [List.take_add_one, hstop]
    rfl
  have hends : ∀ i, ¬ Ends (steps.take j) (.stop label time) i := by
    intro i hends
    have hpairs : Pairs (steps.take (j + 1)) i j := by
      rw [htake, pairs_concat, hlength]
      exact .inr ⟨rfl, hends⟩
    exact hfree i ((pairs_congr (fun k hk => List.getElem?_take_of_lt hk) (by omega)).mp hpairs)
  rw [htake, run_append, run_cons, run_nil]
  obtain ⟨hsame, -⟩ | ⟨later, i, phase, earlier, hqueue, rfl, hlater, -⟩ :=
    (tracks_run (steps.take j)).stop_cases label time
  · exact hsame
  · exact absurd ((hqueue.ends hlater i).mpr rfl) (hends i)

/-- The time of a step that is a start or a stop. -/
def Step.time? : Step → Option Nat
  | .start _ time | .stop _ time => some time
  | _ => none

/-- The clock is monotone: no start or stop has an earlier time than one before it. -/
def Chronological (steps : List Step) : Prop := (steps.filterMap Step.time?).Pairwise (· ≤ ·)

/-- A monotone clock shows no earlier time at a later place. -/
theorem Chronological.le {steps : List Step} (h : Chronological steps) {i j : Nat} (hij : i ≤ j)
    {first second : Step} (hi : steps[i]? = some first) (hj : steps[j]? = some second)
    {time time' : Nat} (ht : first.time? = some time) (ht' : second.time? = some time') :
    time ≤ time' := by
  obtain ⟨hilt, rfl⟩ := List.getElem?_eq_some_iff.mp hi
  obtain ⟨hjlt, rfl⟩ := List.getElem?_eq_some_iff.mp hj
  obtain rfl | hlt : i = j ∨ i < j := by omega
  · exact (Option.some.inj (ht.symm.trans ht')).le
  · exact List.pairwise_iff_getElem.mp (List.pairwise_filterMap.mp h) i j hilt hjlt hlt _ ht _ ht'

/-- With a monotone clock no phase ends before it starts. -/
theorem start_le_stop {steps : List Step} (h : Chronological steps) :
    ∀ marker ∈ (run {} steps).markers, marker.start ≤ marker.stop := by
  obtain ⟨-, -, places, hsettled, hmarked⟩ := tracks_run steps
  intro marker hin
  obtain ⟨n, hn, rfl⟩ := List.getElem_of_mem hin
  have hn' : n < places.length := hmarked.length_eq ▸ hn
  have hplace : (places[n].1, places[n].2) ∈ places := List.getElem_mem hn'
  have hpair := ((hsettled.mem_iff _ _).mp hplace).1.candidate
  have hmark := List.forall₂_iff_get.mp hmarked |>.2 n hn hn'
  exact h.le hpair.lt.le hmark.1 hmark.2 rfl rfl

/-- With a monotone clock the ends of the markers never decrease. -/
theorem pairwise_stop {steps : List Step} (h : Chronological steps) :
    (run {} steps).markers.Pairwise fun first second => first.stop ≤ second.stop := by
  obtain ⟨-, -, places, hsettled, hmarked⟩ := tracks_run steps
  refine List.pairwise_iff_getElem.mpr fun n m hn hm hnm => ?_
  have hn' : n < places.length := hmarked.length_eq ▸ hn
  have hm' : m < places.length := hmarked.length_eq ▸ hm
  have hlt := List.pairwise_iff_getElem.mp hsettled.increasing n m hn' hm' hnm
  have hmark := List.forall₂_iff_get.mp hmarked |>.2
  exact h.le hlt.le (hmark n hn hn').2 (hmark m hm hm').2 rfl rfl

/-- Labels do not interfere. The markers of a label are those of the run without the starts and stops of
all other labels. All markers are, in the order of their stops, the pairs of a stop and the latest start
of its label that was recorded, not forgotten and not paired before, as far as no reset has come after;
a stop without such a start changes nothing. A start is recorded if the monitor is enabled, and none is
pending while it is disabled. With a monotone clock the ends never decrease, and no phase ends before
it starts. -/
theorem markers_paired (steps : List Step) (label : String) :
    (run {} steps).markers.filter (·.label = label) =
        (run {} (steps.filter (·.concerns label))).markers ∧
      (∃ places, Settlement steps places ∧
        List.Forall₂ (MarkedAt steps) (run {} steps).markers places) ∧
      (∀ j time, steps[j]? = some (.stop label time) → (∀ i, ¬ Pairs steps i j) →
        run {} (steps.take (j + 1)) = run {} (steps.take j)) ∧
      (∀ place ≤ steps.length,
        ((run {} (steps.take place)).enabled = true ↔ RecordsAt steps place) ∧
        ((run {} (steps.take place)).enabled = false → (run {} (steps.take place)).running = [])) ∧
      (Chronological steps →
        ((run {} steps).markers.Pairwise fun first second => first.stop ≤ second.stop) ∧
        ∀ marker ∈ (run {} steps).markers, marker.start ≤ marker.stop) := by
  refine ⟨filter_markers_run label steps, (tracks_run steps).markers, ?_, ?_, ?_⟩
  · exact fun j time hstop hfree => run_take_succ_of_unpaired hstop hfree
  · exact fun place hplace => ⟨enabled_run_take hplace, running_run_of_disabled⟩
  · exact fun h => ⟨pairwise_stop h, start_le_stop h⟩

/-- Two phases that cross, one of them started twice, a stop of a phase that was never started, and one
that comes after the monitor was disabled. -/
def crossing : List Step :=
  [.enable, .start "a" 1, .start "b" 2, .start "a" 3, .stop "a" 4, .stop "c" 5, .stop "b" 6, .disable,
    .stop "a" 7]

/-- These steps leave one marker for each of the two phases. -/
theorem markers_paired_of_crossing :
    (run {} crossing).markers = [⟨"a", 3, 4⟩, ⟨"b", 2, 6⟩] ∧
      (run {} (crossing.filter (·.concerns "a"))).markers = [⟨"a", 3, 4⟩] ∧
      run {} (crossing.take 6) = run {} (crossing.take 5) ∧
      (run {} (crossing.take 8)).running = [] ∧
      ∀ marker ∈ (run {} crossing).markers, marker.start ≤ marker.stop := by
  obtain ⟨hlabel, -, -, hplaces, hclock⟩ := markers_paired crossing "a"
  obtain ⟨-, -, hidle, -, -⟩ := markers_paired crossing "c"
  have hmarkers : (run {} crossing).markers = [⟨"a", 3, 4⟩, ⟨"b", 2, 6⟩] := by decide
  have hfree : ∀ i, ¬ Pairs crossing i 5 := by
    intro i hp
    obtain ⟨label, start, stop, hstop, hrem⟩ := hp.candidate
    obtain ⟨rfl, -⟩ : "c" = label ∧ 5 = stop := by simpa [crossing] using hstop
    have hlt := hrem.lt
    have hstart := hrem.start
    interval_cases i <;> simp [crossing] at hstart
  refine ⟨hmarkers, ?_, hidle 5 5 rfl hfree, (hplaces 8 (by decide)).2 (by decide), ?_⟩
  · rw [← hlabel, hmarkers]
    decide
  · exact (hclock (by unfold Chronological; decide)).2

end Rulebook.Monitor
