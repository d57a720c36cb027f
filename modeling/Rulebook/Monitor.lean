import Rulebook.Output
import Rulebook.Calendar

/-!
# Performance markers

A monitor measures phases. While it is enabled, a phase that starts is kept as running until one of
the same label stops; the most recent one stops first. Stopping turns it into a marker. Times are
given in nanoseconds.
-/

namespace Rulebook

/-- A phase that has ended. -/
structure Marker where
  label : String
  start : Nat
  stop : Nat
  deriving Repr, DecidableEq

/-- A phase that has not ended. -/
structure RunningPhase where
  label : String
  start : Nat
  deriving Repr, DecidableEq

/-- A performance monitor. -/
structure Monitor where
  enabled : Bool := false
  /-- The running phases, the most recent one first. -/
  running : List RunningPhase := []
  /-- The markers in the order in which their phases ended. -/
  markers : List Marker := []
  deriving Repr, DecidableEq

/-- The duration of a marker in nanoseconds. -/
def Marker.duration (marker : Marker) : Nat := marker.stop - marker.start

namespace Monitor

/-- The label of the phase that checks the input. -/
def validation : String := "validation"

/-- The label of the phase that builds the script. -/
def compilation : String := "compilation"

/-- The label of the phase that runs the script. -/
def execution : String := "execution"

/-- The monitor, recording from now on. -/
def enable (monitor : Monitor) : Monitor := { monitor with enabled := true }

/-- The monitor, recording no more. Running phases are forgotten, markers are kept. -/
def disable (monitor : Monitor) : Monitor := { monitor with enabled := false, running := [] }

/-- The monitor without phases and markers. -/
def reset (monitor : Monitor) : Monitor := { monitor with running := [], markers := [] }

/-- A phase starts. -/
def start (monitor : Monitor) (label : String) (time : Nat) : Monitor :=
  if monitor.enabled then { monitor with running := ⟨label, time⟩ :: monitor.running } else monitor

/-- The running phases without the most recent one of a label, and that one. -/
def takeRunning (label : String) : List RunningPhase → Option (RunningPhase × List RunningPhase)
  | [] => none
  | phase :: rest =>
    if phase.label = label then some (phase, rest)
    else (takeRunning label rest).map fun (found, others) => (found, phase :: others)

/-- A phase stops. If it was not started, nothing changes and a warning is logged. -/
def stop (monitor : Monitor) (label : String) (time : Nat) : Monitor × Output :=
  if monitor.enabled then
    match takeRunning label monitor.running with
    | some (phase, others) =>
      ({ monitor with
          running := others
          markers := monitor.markers ++ [⟨phase.label, phase.start, time⟩] }, .empty)
    | none =>
      (monitor, .log .warn "docrule_engine::monitoring"
        ("Performance marker " ++ label ++ " stopped without being started"))
  else (monitor, .empty)

/-- A phase that was taken has the label that was asked for. -/
theorem label_takeRunning {label : String} {phase : RunningPhase}
    {running others : List RunningPhase}
    (h : takeRunning label running = some (phase, others)) : phase.label = label := by
  induction running generalizing others with
  | nil => simp [takeRunning] at h
  | cons first rest ih =>
    by_cases hl : first.label = label
    · simp [takeRunning, hl] at h
      exact h.1 ▸ hl
    · simp only [takeRunning, hl, if_false, Option.map_eq_some_iff] at h
      obtain ⟨⟨found, left⟩, hf, he⟩ := h
      obtain ⟨rfl, _⟩ := Prod.mk.injEq .. ▸ he
      exact ih hf

@[simp]
theorem markers_start (monitor : Monitor) (label : String) (time : Nat) :
    (monitor.start label time).markers = monitor.markers := by
  unfold start; split <;> rfl

/-- A phase that stops right after its start leaves one marker, if the monitor is enabled, and no
remark. -/
theorem stop_start (monitor : Monitor) (label : String) (before after : Nat) :
    (monitor.start label before).stop label after =
      (if monitor.enabled then
        { monitor with markers := monitor.markers ++ [⟨label, before, after⟩] } else monitor,
        .empty) := by
  obtain ⟨enabled, running, markers⟩ := monitor
  cases enabled <;> simp [start, stop, takeRunning]

/-- A text in a column of at least `width` characters, at its left side. -/
def left (width : Nat) (text : String) : String :=
  text ++ String.ofList (List.replicate (width - text.length) ' ')

/-- A text in a column of at least `width` characters, at its right side. -/
def right (width : Nat) (text : String) : String :=
  String.ofList (List.replicate (width - text.length) ' ') ++ text

/-- A duration in milliseconds with three decimals. -/
def milliseconds (nanos : Nat) : String :=
  let micros := (nanos + 500) / 1000
  toString (micros / 1000) ++ "." ++ Calendar.padded 3 (micros % 1000)

/-- A row of the report. -/
def row (index label start stop duration : String) : String :=
  left 4 index ++ " " ++ left 14 label ++ " " ++ left 30 start ++ " " ++ left 30 stop ++ " " ++
    right 14 duration ++ "\n"

/-- The line between the parts of the report. -/
def dashes : String := String.ofList (List.replicate 96 '-') ++ "\n"

/-- The rows of markers, numbered from `index` on. -/
def rows (index : Nat) : List Marker → String
  | [] => ""
  | marker :: rest =>
    row (toString index) marker.label (Calendar.text marker.start) (Calendar.text marker.stop)
      (milliseconds marker.duration) ++ rows (index + 1) rest

/-- The table of all markers with the sum of their durations. -/
def report (monitor : Monitor) : String :=
  row "#" "phase" "start" "end" "duration (ms)" ++ dashes ++ rows 1 monitor.markers ++ dashes ++
    row "" "total" "" "" (milliseconds ((monitor.markers.map Marker.duration).foldl (· + ·) 0))

end Monitor
end Rulebook
