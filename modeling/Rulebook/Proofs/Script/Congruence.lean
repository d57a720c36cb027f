import Rulebook.Proofs.Script.Running
import Rulebook.Proofs.Script.Sparing

/-!
# Relations that evaluation preserves

A relation between evaluations that every construct of the language preserves relates the runs of every
task. A `Congruence` is a relation that is preserved by the ways in which evaluations are put together,
and by what they do with variables. There may be a hidden variable, which related evaluations do not use.

The property `q` in `Relates q m m'` is one of the values that `m` and `m'` come to; it is there for
places, at which values are put.
-/

namespace Rulebook.Script
namespace Eval

/-! ### Loops as sequences -/

theorem again_succ (m : Eval Bool) (n : Nat) :
    again m (n + 1) = (do if ← m then again m n else return ()) := by
  funext s
  rw [again]
  dsimp only
  rcases hm : m s with ⟨reason | goesOn, t⟩
  · rw [bind_of_error hm]
  · rw [bind_of_ok hm]
    cases goesOn <;> rfl

theorem through_succ (m : Nat → Eval Bool) (place n : Nat) :
    through m place (n + 1) = (do if ← m place then through m (place + 1) n else return ()) := by
  funext s
  rw [through]
  dsimp only
  rcases hm : m place s with ⟨reason | goesOn, t⟩
  · rw [bind_of_error hm]
  · rw [bind_of_ok hm]
    cases goesOn <;> rfl

/-- No property: every value has it. -/
def Whatever {α : Type} (_ : α) : Prop := True

/-- A relation between evaluations that come to the same values, which have a property. The way in
which evaluations are put together preserves it, and the use of variables that are not hidden. -/
structure Congruence where
  /-- A variable that the evaluations do not use. -/
  hidden : Option String
  Relates : {α : Type} → (α → Prop) → Eval α → Eval α → Prop
  relates_pure : ∀ {α : Type} {q : α → Prop} {a : α}, q a → Relates q (Pure.pure a) (Pure.pure a)
  relates_signal : ∀ {α : Type} {q : α → Prop} (reason : Signal),
    Relates q (Eval.signal reason) (Eval.signal reason)
  relates_bind : ∀ {α β : Type} {q : α → Prop} {r : β → Prop} {m m' : Eval α} {f f' : α → Eval β},
    Relates q m m' → (∀ a, q a → Relates r (f a) (f' a)) → Relates r (m >>= f) (m' >>= f')
  relates_outcome : ∀ {α : Type} {q : α → Prop} {m m' : Eval α}, Relates q m m' →
    Relates (fun result => ∀ a, result = .ok a → q a) (Eval.outcome m) (Eval.outcome m')
  relates_block : ∀ {α : Type} {q : α → Prop} {m m' : Eval α}, Relates q m m' →
    Relates q (Eval.block m) (Eval.block m')
  content : ∀ value, Relates Whatever (Eval.content value) (Eval.content value)
  declare : ∀ {name}, (∀ n ∈ hidden, name ≠ n) → ∀ value constant,
    Relates Whatever (Eval.declare name value constant) (Eval.declare name value constant)
  /-- A variable that is found can be changed and shared. -/
  findVariable : ∀ {name}, (∀ n ∈ hidden, name ≠ n) →
    Relates (fun found => ∀ v, found = some v →
        (∀ value, Relates Whatever (store v value) (store v value)) ∧
          Relates Whatever (share v) (share v))
      (Eval.findVariable name) (Eval.findVariable name)
  isDefined : ∀ name, Relates Whatever (do return Datum.bool (← Eval.findVariable name).isSome)
    (do return Datum.bool (← Eval.findVariable name).isSome)
  subjectAt : ∀ position, Relates Whatever (Eval.subjectAt position) (Eval.subjectAt position)
  setSubject : ∀ value, Relates Whatever (modify fun s => { s with subject := some value })
    (modify fun s => { s with subject := some value })

namespace Congruence

variable {C : Congruence} {α β : Type} {q : α → Prop} {r : β → Prop}

/-- Whether what is tested spares the hidden variable. -/
def Spares (C : Congruence) (test : String → Bool) : Prop := ∀ name ∈ C.hidden, test name = true

theorem spares_and {p q : String → Bool} :
    (C.Spares fun name => p name && q name) ↔ C.Spares p ∧ C.Spares q := by
  unfold Spares
  simp only [Bool.and_eq_true, ← forall_and]

theorem spares_ne {word : String} : (C.Spares (word != ·)) ↔ ∀ n ∈ C.hidden, word ≠ n :=
  forall₂_congr fun _ _ => bne_iff_ne

theorem spares_all {words : Option String} :
    (C.Spares fun n => words.all (· != n)) ↔ ∀ word ∈ words, ∀ n ∈ C.hidden, word ≠ n := by
  cases words with
  | none => simp [Spares]
  | some word => simp [Spares]

namespace Relates

variable {m m' : Eval α} {f f' : α → Eval β}

theorem pure {a : α} (h : q a) : C.Relates q (Pure.pure a) (Pure.pure a) := C.relates_pure h

theorem signal (reason : Signal) : C.Relates q (Eval.signal reason) (Eval.signal reason) :=
  C.relates_signal reason

theorem fail (problem : Problem) (position : Option Position) :
    C.Relates q (Eval.fail problem position) (Eval.fail problem position) :=
  signal _

theorem bind (h : C.Relates q m m') (hf : ∀ a, q a → C.Relates r (f a) (f' a)) :
    C.Relates r (m >>= f) (m' >>= f') :=
  C.relates_bind h hf

/-- One evaluation after another whose value is not wanted. -/
theorem next {n n' : Eval β} (h : C.Relates Whatever m m') (hn : C.Relates r n n') :
    C.Relates r (m >>= fun _ => n) (m' >>= fun _ => n') :=
  h.bind fun _ _ => hn

/-- What would come after a signal does not count. -/
theorem fail_bind (problem : Problem) (position : Option Position) (f f' : α → Eval β) :
    C.Relates r (Eval.fail problem position >>= f) (Eval.fail problem position >>= f') :=
  (fail (q := fun _ => False) problem position).bind fun _ ha => ha.elim

theorem outcome (h : C.Relates q m m') :
    C.Relates (fun result => ∀ a, result = .ok a → q a) (Eval.outcome m) (Eval.outcome m') :=
  C.relates_outcome h

theorem block (h : C.Relates q m m') : C.Relates q (Eval.block m) (Eval.block m') :=
  C.relates_block h

theorem ofOutcome {result : Except Signal α} (h : ∀ a, result = .ok a → q a) :
    C.Relates q (Eval.ofOutcome result) (Eval.ofOutcome result) := by
  cases result with
  | ok a => exact pure (h a rfl)
  | error reason => exact signal reason

theorem ofResult (position : Option Position) {result : Except Problem α}
    (h : ∀ a, result = .ok a → q a) :
    C.Relates q (Eval.ofResult position result) (Eval.ofResult position result) := by
  cases result with
  | ok a => exact pure (h a rfl)
  | error problem => exact fail problem position

theorem again {m m' : Eval Bool} (h : C.Relates Whatever m m') (n : Nat) :
    C.Relates Whatever (Eval.again m n) (Eval.again m' n) := by
  induction n with
  | zero => exact signal _
  | succ n ih =>
    rw [again_succ, again_succ]
    refine h.bind fun goesOn _ => ?_
    split
    · exact ih
    · exact pure trivial

theorem through {m m' : Nat → Eval Bool} (h : ∀ place, C.Relates Whatever (m place) (m' place))
    (place n : Nat) :
    C.Relates Whatever (Eval.through m place n) (Eval.through m' place n) := by
  induction n generalizing place with
  | zero => exact pure trivial
  | succ n ih =>
    rw [through_succ, through_succ]
    refine (h place).bind fun goesOn _ => ?_
    split
    · exact ih (place + 1)
    · exact pure trivial

theorem collect {f f' : α → Eval β} {items : List α}
    (h : ∀ a ∈ items, C.Relates Whatever (f a) (f' a)) :
    C.Relates Whatever (Eval.collect f items) (Eval.collect f' items) := by
  induction items with
  | nil => exact pure trivial
  | cons a rest ih =>
    exact (h a (.head _)).bind fun b _ => (ih fun a ha => h a (.tail _ ha)).bind fun bs _ =>
      pure trivial

theorem forM {f : α → Eval Unit} {a : Option α} (h : ∀ b ∈ a, C.Relates Whatever (f b) (f b)) :
    C.Relates Whatever (a.forM f) (a.forM f) := by
  cases a with
  | none => exact pure trivial
  | some a => exact h a rfl

end Relates

/-! ### Variables, values and places -/

/-- Whether putting a value at a place is related to itself. -/
def Fits (C : Congruence) (place : Place) : Prop :=
  ∀ value, C.Relates Whatever (place.put value) (place.put value)

/-- A place at which nothing is ever put. -/
theorem fits_value (value : Datum) : C.Fits { value } := fun _ => .pure trivial

theorem relates_variableAt {name : String} (hname : C.Spares (name != ·))
    (position : Option Position) :
    C.Relates (fun v => (∀ value, C.Relates Whatever (store v value) (store v value)) ∧
        C.Relates Whatever (share v) (share v))
      (variableAt name position) (variableAt name position) := by
  refine (C.findVariable (spares_ne.1 hname)).bind fun found hfound => ?_
  split
  · exact .pure (hfound _ rfl)
  · exact .fail _ _

theorem relates_toValue (position : Option Position) (argument : Datum) :
    C.Relates Whatever (toValue position argument) (toValue position argument) := by
  unfold toValue
  split
  · exact .pure trivial
  · exact .fail _ _
  · exact .fail _ _

theorem relates_content (values : List Datum) :
    C.Relates Whatever (collect Eval.content values) (collect Eval.content values) :=
  .collect fun value _ => C.content value

theorem relates_itemPlace {place : Place} (hplace : C.Fits place) (index : Datum)
    (position : Position) :
    C.Relates C.Fits (place.itemPlace index position) (place.itemPlace index position) := by
  refine (Relates.ofResult _ fun _ _ => trivial).bind (q := Whatever) fun value _ => .pure ?_
  intro item
  dsimp only
  split
  · exact (Relates.ofResult _ fun _ _ => trivial).bind (q := Whatever) fun value _ => hplace value
  · exact .pure trivial

theorem relates_valueOf {call call' : Eval (Except Signal Datum × Option Datum)}
    (hcall : C.Relates Whatever call call') :
    C.Relates Whatever (Eval.valueOf call) (Eval.valueOf call') :=
  hcall.bind fun _ _ => .ofOutcome fun _ _ => trivial

theorem relates_sortPlain (position : Option Position) (items : List Datum) :
    C.Relates Whatever (Eval.sortPlain position items) (Eval.sortPlain position items) := by
  unfold Eval.sortPlain
  split
  · exact .pure trivial
  · split
    · exact .fail _ _
    · split <;> exact .pure trivial

theorem relates_changeItem {place : Place} (hplace : C.Fits place) (index : Datum)
    (position : Position) {change change' : Datum → Eval Datum}
    (hchange : ∀ old, C.Relates Whatever (change old) (change' old)) :
    C.Relates Whatever (Eval.changeItem place index position change)
      (Eval.changeItem place index position change') := by
  have hput (value : Except Problem Datum) : C.Relates Whatever
      (do place.put (← Eval.ofResult (some position) value))
      (do place.put (← Eval.ofResult (some position) value)) :=
    (Relates.ofResult _ fun _ _ => trivial).bind (q := Whatever) fun value _ => hplace value
  have hnew (old : Datum) : C.Relates Whatever
      (do
        let new ← change old
        place.put (← Eval.ofResult (some position) (place.value.withItem index new)))
      (do
        let new ← change' old
        place.put (← Eval.ofResult (some position) (place.value.withItem index new))) :=
    (hchange old).bind fun new _ => hput _
  unfold Eval.changeItem
  refine (Relates.ofResult _ fun _ _ => trivial).bind (q := Whatever) fun old _ => ?_
  dsimp only
  split
  · exact (Relates.ofResult _ fun _ _ => trivial).bind (q := Whatever) fun value _ =>
      (hplace value).next (hnew old)
  · exact hnew old

theorem relates_isShared {name : String} (hname : C.Spares (name != ·)) (position : Position) :
    C.Relates Whatever (Eval.isShared name position) (Eval.isShared name position) := by
  refine (relates_variableAt hname _).bind fun v _ => ?_
  split <;> exact .pure trivial

theorem relates_capture {captured : List (String × Position)}
    (hcaptured : C.Spares fun n => captured.all fun (name, _) => name != n) :
    C.Relates Whatever (Eval.capture captured) (Eval.capture captured) :=
  .collect fun _ hfound => (relates_variableAt
    (fun n hn => List.all_eq_true.1 (hcaptured n hn) _ hfound) _).bind fun _ hv => hv.2

theorem relates_applyOperator (operator : String) (operands : List Datum) (position : Position) :
    C.Relates Whatever (Eval.applyOperator operator operands position)
      (Eval.applyOperator operator operands position) := by
  unfold Eval.applyOperator
  dsimp only
  split
  · exact .ofResult _ fun _ _ => trivial
  · exact .fail _ _

theorem relates_breakable {loop loop' : Eval Unit} (hloop : C.Relates Whatever loop loop') :
    C.Relates Whatever (Eval.breakable loop) (Eval.breakable loop') := by
  refine hloop.outcome.bind fun result _ => ?_
  split
  · exact .pure trivial
  · exact .pure trivial
  · exact .signal _

theorem relates_assigned (operator : Option String) (value : Datum) (position : Position)
    (old : Datum) :
    C.Relates Whatever (Eval.assigned operator value position old)
      (Eval.assigned operator value position old) := by
  unfold Eval.assigned
  split
  · exact .pure trivial
  · split
    · exact .ofResult _ fun _ _ => trivial
    · exact .fail _ _

end Congruence
end Eval
end Rulebook.Script
