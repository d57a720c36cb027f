import Rulebook.Proofs.Script.Lifting
import Rulebook.Workbench

/-!
# What scripts log

A record of the log names the part of the program that it comes from; the program itself goes by
`docrule`. No script leaves a record under that name, in whichever mode it runs, if its actions leave
none: `foreign_execute`.
-/

namespace Rulebook

/-- Whether an output has no record of the program itself. -/
def Output.Foreign (output : Output) : Prop := ∀ record ∈ output.logs, record.target ≠ "docrule"

/-- Whether an action leaves no record of the program itself. -/
def Action.Foreign (action : Action) : Prop :=
  ∀ document input, (action.run document input).output.Foreign

namespace Output

variable {a b : Output}

theorem foreign_empty : Foreign .empty := by
  intro record hrecord
  cases hrecord

theorem foreign_print (text : String) : (print text).Foreign := by
  intro record hrecord
  cases hrecord

theorem foreign_log {level : Level} {target message : String} (h : target ≠ "docrule") :
    (log level target message).Foreign := by
  intro record hrecord
  rw [List.mem_singleton.1 hrecord]
  exact h

theorem foreign_append_iff : (a ++ b).Foreign ↔ a.Foreign ∧ b.Foreign := by
  simp only [Foreign, logs_append, List.mem_append, or_imp, forall_and]

end Output

namespace Script

namespace Eval

/-! ### Evaluations -/

/-- The evaluation adds no record of the program itself, and comes to values with a property only. -/
structure Keeps {α : Type} (q : α → Prop) (m : Eval α) : Prop where
  foreign : ∀ {s}, s.output.Foreign → (m s).2.output.Foreign
  yields : ∀ {s a}, (m s).1 = .ok a → q a

namespace Keeps

variable {α β : Type} {q : α → Prop} {r : β → Prop} {m : Eval α} {f : α → Eval β}

/-- An evaluation that leaves no output. -/
theorem of_eq (h : ∀ s, (m s).2.output = s.output) : Keeps Whatever m :=
  ⟨fun {s} hs => (h s).symm ▸ hs, fun _ => trivial⟩

theorem pure {a : α} (h : q a) : Keeps q (Pure.pure a) :=
  ⟨fun hs => hs, fun ha => Except.ok.inj ha ▸ h⟩

theorem signal (reason : Signal) : Keeps q (Eval.signal reason) :=
  ⟨fun hs => hs, fun ha => (by cases ha)⟩

theorem bind (h : Keeps q m) (hf : ∀ a, q a → Keeps r (f a)) : Keeps r (m >>= f) := by
  constructor
  · intro s hs
    have ht := h.foreign hs
    rcases hm : m s with ⟨_ | a, t⟩ <;> rw [hm] at ht
    · rw [bind_of_error hm]
      exact ht
    · rw [bind_of_ok hm]
      exact (hf a (h.yields (congrArg Prod.fst hm))).foreign ht
  · intro s b hb
    rcases hm : m s with ⟨reason | a, t⟩
    · rw [bind_of_error hm] at hb
      cases hb
    · rw [bind_of_ok hm] at hb
      exact (hf a (h.yields (congrArg Prod.fst hm))).yields hb

theorem outcome (h : Keeps q m) :
    Keeps (fun result => ∀ a, result = .ok a → q a) (Eval.outcome m) where
  foreign := h.foreign
  yields hresult _ ha := h.yields ((Except.ok.inj hresult).trans ha)

theorem block (h : Keeps q m) : Keeps q (Eval.block m) := ⟨h.foreign, h.yields⟩

theorem write {output : Output} (h : output.Foreign) : Keeps Whatever (Eval.write output) :=
  ⟨fun hs => Output.foreign_append_iff.2 ⟨hs, h⟩, fun _ => trivial⟩

theorem settle {m : Eval Datum} (h : Keeps Whatever m) : Keeps Whatever (Eval.settle m) := by
  refine ⟨fun {s} hs => ?_, fun _ => trivial⟩
  have hstate : (Eval.settle m s).2 = (m s).2 := by
    unfold Eval.settle
    split
    · rename_i hm
      rw [hm]
    · rfl
  rw [hstate]
  exact h.foreign hs

end Keeps

theorem keeps_store (v : Variable) (value : Datum) : Keeps Whatever (store v value) :=
  .of_eq fun s => by
    unfold store Eval.modify
    dsimp only
    split <;> rfl

theorem keeps_share (v : Variable) : Keeps Whatever (share v) :=
  .of_eq fun s => by
    unfold share
    split <;> rfl

/-- To add no record of the program itself is a property that evaluation preserves; no variable is
hidden. -/
def keeping : Congruence where
  hidden := none
  Relates q m _ := Keeps q m
  relates_pure := .pure
  relates_signal := .signal
  relates_bind := .bind
  relates_outcome := .outcome
  relates_block := .block
  content value := .of_eq fun s => by
    unfold content
    split <;> rfl
  declare _ _ _ := .of_eq fun _ => rfl
  findVariable _ := Keeps.bind (.of_eq fun _ => rfl) fun _ _ => .pure fun v _ =>
    ⟨fun value => keeps_store v value, keeps_share v⟩
  isDefined _ := .of_eq fun _ => rfl
  subjectAt _ := Keeps.bind (q := Whatever) (.of_eq fun _ => rfl) fun s _ => by
    split
    · exact .pure trivial
    · exact .signal _
  setSubject _ := .of_eq fun _ => rfl

/-! ### Runs -/

variable {setting : Setting} {runner : Runner}

/-- The functions that reach the host log under the name of scripts. -/
theorem keeps_callHost (name : String) (arguments : List Datum) :
    Option.Rel (fun m _ => Keeps Whatever m) (callHost setting name arguments)
      (callHost setting name arguments) := by
  have hclock : Keeps Whatever (readClock setting.host) := .of_eq fun _ => rfl
  unfold callHost
  dsimp only
  split
  case h_6 =>
    exact .some ((Keeps.write (Output.foreign_log (by decide))).bind fun _ _ => .pure trivial)
  case h_8 => exact .none
  all_goals first | exact .some (hclock.bind fun _ _ => .pure trivial) | exact .some (.pure trivial)

theorem keeps_callFunction (h : ∀ task, Keeps Whatever (runner task)) (f : Function)
    (arguments : List Datum) (subject : Option Datum) (position : Option Position) :
    Keeps Whatever (callFunction runner f arguments subject position) := by
  refine ⟨fun {s} hs => ?_, fun _ => trivial⟩
  have henter : (enter f.parameters arguments subject s).output.Foreign := hs
  rw [callFunction_apply]
  split
  · exact hs
  · exact (h (.body f.body)).settle.foreign henter

/-- What a script prints is logged under the name of scripts, if it is logged. -/
theorem foreign_wordOutput (setting : Setting) (name text : String) (position : Position) :
    (setting.wordOutput name text position).Foreign := by
  unfold Setting.wordOutput Setting.debugged Setting.printed
  cases setting.sandbox.mode with
  | secure => split <;> exact Output.foreign_log (by decide)
  | opened => split <;> exact Output.foreign_print _

/-- What evaluations ask for besides variables adds no record of the program itself. -/
theorem lifts_keeping
    (hactions : ∀ name action, setting.sandbox.actions.get? name = some action → action.Foreign)
    (h : ∀ task, Keeps Whatever (runner task)) : keeping.Lifts setting setting runner runner where
  functions := rfl
  actions := rfl
  runs task _ := h task
  callFunction := keeps_callFunction h
  callHost := keeps_callHost
  hasModule _ := .of_eq fun _ => rfl
  leave name action haction document input := .write (hactions name action haction document input)
  print name text position := .write (foreign_wordOutput setting name text position)

/-- **A run adds no record of the program itself.** -/
theorem keeps_run
    (hactions : ∀ name action, setting.sandbox.actions.get? name = some action → action.Foreign)
    (depth : Nat) (task : Task) : Keeps Whatever (run setting depth task) := by
  induction depth generalizing task with
  | zero => exact .signal _
  | succ n ih => exact (lifts_keeping hactions ih).step fun _ hn => (by cases hn)

theorem keeps_evaluation
    (hactions : ∀ name action, setting.sandbox.actions.get? name = some action → action.Foreign)
    (program : Program) (function argument : String) :
    Keeps Whatever (evaluation setting program function argument) := by
  have hruns := keeps_run hactions depth
  have hcall (f : Function) :
      Keeps Whatever (valueOf (callFunction (run setting depth) f [.text argument] none none)) :=
    (keeps_callFunction hruns f [.text argument] none none).bind fun _ _ =>
      Congruence.Relates.ofOutcome (C := keeping) fun _ _ => trivial
  unfold evaluation
  refine (hruns (.body program.statements)).block.outcome.bind fun top _ => ?_
  dsimp only
  split
  case h_3 => exact .signal _
  all_goals
    split
    · exact hcall _
    · exact .signal _

end Eval

/-- **A script leaves no record of the program itself.** -/
theorem foreign_execute {script : Script}
    (hactions : ∀ name action, script.sandbox.actions.get? name = some action → action.Foreign)
    (input : String) (host : Host) : (script.execute input host).1.Foreign :=
  (@Eval.keeps_evaluation (script.setting host) hactions script.program Compilation.entryPoint
    input).foreign Output.foreign_empty

end Script
end Rulebook
