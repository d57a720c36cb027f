import Rulebook.Proofs.Script.Lifting

/-!
# Variables that do not matter

What code comes to does not depend on the value of a variable that the code spares. A state is masked by
giving all variables of a name another value, and the run of a task that spares the name does the same
on a masked state, but for the mask: `ignores_run`. The functions that it calls begin with variables of
their own, so that they do the same on any mask, whatever names they use.
-/

namespace Rulebook.Script

variable {name : String} {mask : Datum}

/-- A variable whose value is replaced if it has a certain name. -/
def Variable.masked (name : String) (mask : Datum) (v : Variable) : Variable :=
  if v.name = name then { v with value := mask } else v

/-- A state in which the variables of a certain name have another value. -/
def State.masked (name : String) (mask : Datum) (s : State) : State :=
  { s with scope := s.scope.map (Variable.masked name mask) }

@[simp] theorem Variable.name_masked (v : Variable) : (v.masked name mask).name = v.name := by
  unfold masked
  split <;> rfl

theorem Variable.masked_of_ne {v : Variable} (h : v.name ≠ name) : v.masked name mask = v :=
  if_neg h

namespace Eval

theorem replaceIn_map_masked {word : String} (h : word ≠ name) (value : Datum)
    (scope : List Variable) : replaceIn word value (scope.map (Variable.masked name mask)) =
      (replaceIn word value scope).map (Variable.masked name mask) := by
  induction scope with
  | nil => rfl
  | cons v rest ih =>
    rw [List.map_cons, replaceIn, replaceIn, Variable.name_masked]
    split
    · rename_i hword
      have hv : v.name ≠ name := hword ▸ h
      have hnew : ({ v with value } : Variable).masked name mask = { v with value } := if_neg hv
      rw [List.map_cons, Variable.masked_of_ne hv, hnew]
    · rw [List.map_cons, ih]

theorem find?_map_masked (word : String) (scope : List Variable) :
    (scope.map (Variable.masked name mask)).find? (·.name == word) =
      (scope.find? (·.name == word)).map (Variable.masked name mask) := by
  rw [List.find?_map]
  congr
  funext v
  exact congrArg (· == word) v.name_masked

/-- The second evaluation does the same on a masked state as the first one on the state as it is, and
this comes to values with a property only. -/
structure Ignores (name : String) (mask : Datum) {α : Type} (q : α → Prop) (m m' : Eval α) :
    Prop where
  yields : ∀ {s a}, (m s).1 = .ok a → q a
  same : ∀ s, m' (s.masked name mask) = ((m s).1, (m s).2.masked name mask)

namespace Ignores

variable {α β : Type} {q : α → Prop} {r : β → Prop} {m m' : Eval α} {f f' : α → Eval β}

theorem imp {q' : α → Prop} (h : Ignores name mask q m m') (hq : ∀ a, q a → q' a) :
    Ignores name mask q' m m' :=
  ⟨fun ha => hq _ (h.yields ha), h.same⟩

/-- An evaluation that neither sees nor changes variables. -/
theorem of_same (h : ∀ s, m (s.masked name mask) = ((m s).1, (m s).2.masked name mask)) :
    Ignores name mask Whatever m m :=
  ⟨fun _ => trivial, h⟩

/-- A change that does not depend on the mask. -/
theorem modify {change : State → State}
    (h : ∀ s, change (s.masked name mask) = (change s).masked name mask) :
    Ignores name mask Whatever (Eval.modify change) (Eval.modify change) :=
  ⟨fun _ => trivial, fun s => by rw [Eval.modify, h]; rfl⟩

theorem bind (h : Ignores name mask q m m') (hf : ∀ a, q a → Ignores name mask r (f a) (f' a)) :
    Ignores name mask r (m >>= f) (m' >>= f') := by
  constructor
  · intro s b hb
    rcases hm : m s with ⟨reason | a, t⟩
    · rw [bind_of_error hm] at hb
      cases hb
    · rw [bind_of_ok hm] at hb
      exact (hf a (h.yields (s := s) (by rw [hm]))).yields hb
  · intro s
    have hm' := h.same s
    rcases hm : m s with ⟨reason | a, t⟩
    · rw [hm] at hm'
      rw [bind_of_error hm, bind_of_error hm']
    · rw [hm] at hm'
      rw [bind_of_ok hm, bind_of_ok hm']
      exact (hf a (h.yields (s := s) (by rw [hm]))).same t

theorem block (h : Ignores name mask q m m') :
    Ignores name mask q (Eval.block m) (Eval.block m') where
  yields ha := h.yields ha
  same s := by
    unfold Eval.block
    rw [h.same s]
    simp only [State.masked, List.length_map, List.map_drop]

theorem settle {m m' : Eval Datum} (h : Ignores name mask Whatever m m') :
    Ignores name mask Whatever (Eval.settle m) (Eval.settle m') where
  yields _ := trivial
  same s := by
    unfold Eval.settle
    rw [h.same s]
    obtain ⟨(_ | _) | _, t⟩ := m s <;> rfl

theorem findVariable {word : String} (h : word ≠ name) :
    Ignores name mask (fun found => ∀ v, found = some v → v.name ≠ name)
      (Eval.findVariable word) (Eval.findVariable word) where
  yields {s a} ha v hv := by
    cases ha
    have hname : v.name = word := by simpa using List.find?_some hv
    rwa [hname]
  same s := by
    change (Except.ok ((s.scope.map (Variable.masked name mask)).find? (·.name == word)), _) = _
    rw [find?_map_masked]
    change _ = (Except.ok (s.scope.find? (·.name == word)), s.masked name mask)
    cases hv : s.scope.find? (·.name == word) with
    | none => rfl
    | some v =>
      have hname : v.name = word := by simpa using List.find?_some hv
      rw [Option.map_some, Variable.masked_of_ne (hname ▸ h)]

theorem store {v : Variable} (h : v.name ≠ name) (value : Datum) :
    Ignores name mask Whatever (Eval.store v value) (Eval.store v value) :=
  modify fun s => by
    split
    · rfl
    · simp only [State.masked, replaceIn_map_masked h]

theorem share {v : Variable} (h : v.name ≠ name) :
    Ignores name mask Whatever (Eval.share v) (Eval.share v) where
  yields _ := trivial
  same s := by
    unfold Eval.share
    split
    · rfl
    · simp only [State.masked, replaceIn_map_masked h]

theorem callFunction (runner : Runner) (f : Function) (arguments : List Datum)
    (subject : Option Datum) (position : Option Position) :
    Ignores name mask Whatever (Eval.callFunction runner f arguments subject position)
      (Eval.callFunction runner f arguments subject position) where
  yields _ := trivial
  same s := by
    rw [callFunction_apply, callFunction_apply]
    have hcalls : (s.masked name mask).calls = s.calls := rfl
    rw [hcalls]
    split <;> rfl

end Ignores

/-- To ignore a variable is a relation that evaluation preserves, as long as it does not use the
variable. -/
def ignoring (name : String) (mask : Datum) : Congruence where
  hidden := some name
  Relates q m m' := Ignores name mask q m m'
  relates_pure ha := ⟨fun h => Except.ok.inj h ▸ ha, fun _ => rfl⟩
  relates_signal _ := ⟨fun h => (by cases h), fun _ => rfl⟩
  relates_bind := .bind
  relates_outcome h := ⟨fun hresult a ha => h.yields ((Except.ok.inj hresult).trans ha),
    fun s => by rw [outcome, h.same]; rfl⟩
  relates_block := .block
  content value := .of_same fun s => by
    unfold content
    split <;> rfl
  declare h value constant := .modify fun s => by
    have hname := h name rfl
    simp [State.masked, Variable.masked, hname]
  findVariable h := (Ignores.findVariable (h name rfl)).imp fun found hfound v hv =>
    ⟨.store (hfound v hv), .share (hfound v hv)⟩
  isDefined word := .of_same fun s => by
    change (Except.ok (Datum.bool
      ((s.scope.map (Variable.masked name mask)).find? (·.name == word)).isSome), _) = _
    rw [find?_map_masked, Option.isSome_map]
    rfl
  subjectAt position := .of_same fun s => by
    obtain ⟨scope, subject, cells, calls, readings, fetched, output⟩ := s
    cases subject <;> rfl
  setSubject value := .modify fun _ => rfl

/-- What evaluations ask for besides variables does not depend on the mask. -/
theorem lifts_ignoring {setting : Setting} {runner : Runner}
    (h : ∀ task : Task, task.spares name = true →
      Ignores name mask Whatever (runner task) (runner task)) :
    (ignoring name mask).Lifts setting setting runner runner where
  functions := rfl
  actions := rfl
  runs task hs := h task (hs name rfl)
  callFunction := .callFunction runner
  callHost word arguments := by
    unfold callHost
    dsimp only
    split
    case h_8 => exact .none
    all_goals exact .some (.of_same fun _ => rfl)
  hasModule _ := .of_same fun _ => rfl
  leave _ _ _ _ _ := .modify fun _ => rfl
  print _ _ _ := .modify fun _ => rfl

/-- **A run ignores a variable that its task spares.** -/
theorem ignores_run (setting : Setting) (depth : Nat) {task : Task} (hs : task.spares name = true) :
    Ignores name mask Whatever (run setting depth task) (run setting depth task) := by
  induction depth generalizing task with
  | zero => exact (ignoring name mask).relates_signal _
  | succ n ih =>
    refine (lifts_ignoring fun task => ih).step fun word hword => ?_
    cases hword
    exact hs

end Eval
end Rulebook.Script
