import Mathlib.Data.List.Forall2
import Mathlib.Data.List.Nodup
import Mathlib.Data.Option.Basic
import Rulebook.Engine.Session

/-!
# Values whose fields are enumerated in another order

The fields of a record have no order of their own, and whoever goes through them may meet them in any
order. Values that only differ in such orders are `Rearranged`. They are equal to the same values, break
the same constraints of a declaration and pass the same checks.
-/

namespace Rulebook

namespace Fields

variable {α : Type}

theorem get?_append (front rest : Fields α) (name : String) :
    get? (front ++ rest) name = (get? front name).or (get? rest name) := by
  induction front with
  | nil => rfl
  | cons field front ih =>
    rw [List.cons_append, get?_cons, get?_cons, ih]
    split <;> rfl

/-- Neighbours of different names may change places. -/
theorem get?_swap {a b : String × α} (names : a.1 ≠ b.1) (front rest : Fields α) (name : String) :
    get? (front ++ a :: b :: rest) name = get? (front ++ b :: a :: rest) name := by
  rw [get?_append, get?_append]
  congr 1
  rw [get?_cons, get?_cons, get?_cons, get?_cons]
  split
  · rename_i ha
    rw [if_neg fun hb => names (ha.trans hb.symm)]
  · rfl

theorem nodup_of_perm {fields fields' : Fields α} (h : fields.Perm fields')
    (hnames : fields.names.Nodup) : fields'.names.Nodup :=
  (h.map Prod.fst).nodup hnames

/-- Fields of different names may be in any order. -/
theorem get?_of_perm {fields fields' : Fields α} (h : fields.Perm fields')
    (hnames : fields.names.Nodup) (name : String) : fields.get? name = fields'.get? name := by
  induction h with
  | nil => rfl
  | cons field _ ih => rw [get?_cons, get?_cons, ih (List.nodup_cons.1 hnames).2]
  | swap a b rest =>
    have hne : b.1 ≠ a.1 := fun heq => (List.nodup_cons.1 hnames).1 (List.mem_cons.2 (.inl heq))
    exact get?_swap hne [] rest name
  | trans h _ ih ih' => rw [ih hnames, ih' (nodup_of_perm h hnames)]

end Fields

namespace Value

/-- Values that only differ in the order in which the fields of records are enumerated, at the top or
further inside. -/
inductive Rearranged : Value → Value → Prop where
  | refl (value : Value) : Rearranged value value
  | trans {first second third : Value} : Rearranged first second → Rearranged second third →
    Rearranged first third
  /-- Two neighbours change places. -/
  | swap (front : Fields Value) {a b : String × Value} (rest : Fields Value) (names : a.1 ≠ b.1) :
    Rearranged (record (front ++ a :: b :: rest)) (record (front ++ b :: a :: rest))
  | field (front : Fields Value) (name : String) {value value' : Value} (rest : Fields Value) :
    Rearranged value value' →
    Rearranged (record (front ++ (name, value) :: rest)) (record (front ++ (name, value') :: rest))
  | item (front : List Value) {value value' : Value} (rest : List Value) :
    Rearranged value value' →
    Rearranged (list (front ++ value :: rest)) (list (front ++ value' :: rest))

/-- The fields of a record may be enumerated in any order. -/
theorem Rearranged.of_perm {fields fields' : Fields Value} (h : fields.Perm fields')
    (hnames : fields.names.Nodup) : Rearranged (record fields) (record fields') := by
  have go (front : Fields Value) : Rearranged (record (front ++ fields)) (record (front ++ fields')) := by
    induction h generalizing front with
    | nil => exact .refl _
    | cons field _ ih =>
      have := ih (List.nodup_cons.1 hnames).2 (front ++ [field])
      rwa [List.append_assoc, List.append_assoc] at this
    | swap a b rest =>
      have hne : b.1 ≠ a.1 := fun heq => (List.nodup_cons.1 hnames).1 (List.mem_cons.2 (.inl heq))
      exact .swap front rest hne
    | trans h _ ih ih' => exact (ih hnames front).trans (ih' (Fields.nodup_of_perm h hnames) front)
  exact go []

/-! ### The same form -/

/-- Values of the same form whose items or fields are rearranged. -/
inductive Matches : Value → Value → Prop where
  | same (value : Value) : Matches value value
  | list {items items' : List Value} (h : List.Forall₂ Rearranged items items') :
    Matches (list items) (list items')
  | record {fields fields' : Fields Value}
    (h : ∀ name, Option.Rel Rearranged (fields.get? name) (fields'.get? name)) :
    Matches (record fields) (record fields')

theorem rel_refl (found : Option Value) : Option.Rel Rearranged found found := by
  cases found with
  | none => exact .none
  | some value => exact .some (.refl value)

theorem forall₂_refl (items : List Value) : List.Forall₂ Rearranged items items :=
  List.forall₂_same.2 fun value _ => .refl value

theorem forall₂_trans {first second third : List Value} (h : List.Forall₂ Rearranged first second)
    (h' : List.Forall₂ Rearranged second third) : List.Forall₂ Rearranged first third := by
  induction h generalizing third with
  | nil => exact h'
  | cons hfirst _ ih =>
    cases h' with
    | cons hsecond hrest => exact .cons (hfirst.trans hsecond) (ih hrest)

theorem rel_trans {first second third : Option Value} (h : Option.Rel Rearranged first second)
    (h' : Option.Rel Rearranged second third) : Option.Rel Rearranged first third := by
  cases h with
  | none => exact h'
  | some hfirst =>
    cases h' with
    | some hsecond => exact .some (hfirst.trans hsecond)

/-- Rearranging leaves the form of a value, and rearranges what is inside. -/
theorem Rearranged.matches {value value' : Value} (h : Rearranged value value') :
    Matches value value' := by
  induction h with
  | refl value => exact .same value
  | trans _ _ ih ih' =>
    cases ih with
    | same => exact ih'
    | list hitems =>
      cases ih' with
      | same => exact .list hitems
      | list hitems' => exact .list (forall₂_trans hitems hitems')
    | record hfields =>
      cases ih' with
      | same => exact .record hfields
      | record hfields' => exact .record fun name => rel_trans (hfields name) (hfields' name)
  | swap front rest names =>
    refine .record fun name => ?_
    rw [Fields.get?_swap names]
    exact rel_refl _
  | field front name rest h _ =>
    refine .record fun other => ?_
    rw [Fields.get?_append, Fields.get?_append, Fields.get?_cons, Fields.get?_cons]
    cases Fields.get? front other with
    | some value => exact rel_refl _
    | none =>
      split
      · exact .some h
      · exact rel_refl _
  | item front rest h _ =>
    exact .list (List.rel_append (forall₂_refl front) (.cons h (forall₂_refl rest)))

/-- What is read from the form of a value is the same for rearranged values. -/
theorem eq_of_rel {α : Type} {read : Option Value → α} {found found' : Option Value}
    (h : Option.Rel Rearranged found found')
    (list : ∀ items items', List.Forall₂ Rearranged items items' →
      read (some (.list items)) = read (some (.list items')))
    (record : ∀ fields fields', read (some (.record fields)) = read (some (.record fields'))) :
    read found = read found' := by
  cases h with
  | none => rfl
  | some h =>
    cases h.matches with
    | same => rfl
    | list hitems => exact list _ _ hitems
    | record => exact record _ _

/-! ### The same constraints are broken -/

theorem sameItems_append {value value' : Value} (h : ∀ a, same a value = same a value')
    (front rest items : List Value) :
    sameItems items (front ++ value :: rest) = sameItems items (front ++ value' :: rest) := by
  induction front generalizing items with
  | nil =>
    cases items with
    | nil => rfl
    | cons a items => rw [List.nil_append, List.nil_append, sameItems, sameItems, h]
  | cons b front ih =>
    cases items with
    | nil => rfl
    | cons a items => rw [List.cons_append, List.cons_append, sameItems, sameItems, ih]

theorem sameFields_cons (field : String × Value) (rest fields : Fields Value) :
    sameFields (field :: rest) fields =
      ((fields.get? field.1).any (same field.2) && sameFields rest fields) := by
  rw [sameFields]
  cases fields.get? field.1 <;> rfl

/-- What counts of the fields on the right is what is found under each name. -/
theorem sameFields_congr {fields fields' : Fields Value} (h : ∀ name a,
      (fields.get? name).any (same a) = (fields'.get? name).any (same a)) (own : Fields Value) :
    sameFields own fields = sameFields own fields' := by
  induction own with
  | nil => rfl
  | cons field rest ih => rw [sameFields_cons, sameFields_cons, h, ih]

theorem same_record {fields fields' : Fields Value} (hlength : fields.length = fields'.length)
    (h : ∀ name a, (fields.get? name).any (same a) = (fields'.get? name).any (same a)) (a : Value) :
    same a (record fields) = same a (record fields') := by
  cases a with
  | record own => rw [same, same, hlength, sameFields_congr h]
  | _ => rfl

/-- Rearranged values are equal to the same values. -/
theorem same_eq {value value' : Value} (h : Rearranged value value') (a : Value) :
    same a value = same a value' := by
  induction h generalizing a with
  | refl value => rfl
  | trans _ _ ih ih' => rw [ih, ih']
  | swap front rest names =>
    exact same_record (by simp) (fun name a => by rw [Fields.get?_swap names]) a
  | field front name rest _ ih =>
    refine same_record (by simp) (fun other a => ?_) a
    rw [Fields.get?_append, Fields.get?_append, Fields.get?_cons, Fields.get?_cons]
    cases Fields.get? front other with
    | some found => rfl
    | none =>
      split
      · exact ih a
      · rfl
  | item front rest _ ih =>
    cases a with
    | list items => exact sameItems_append ih front rest items
    | _ => rfl

section

open Parameter

variable (spec : Spec)

theorem violations_record (fields : Fields Value) : spec.violations (some (record fields)) =
    if spec.kind.accepts (record []) then spec.allowedViolations (record fields)
    else [spec.violation (.kind spec.kind)] := by
  have hkind : spec.kind.accepts (record fields) = spec.kind.accepts (record []) := by
    cases spec.kind <;> rfl
  rw [Spec.violations, Option.filter_some_pos rfl]
  dsimp only
  rw [hkind]
  rfl

theorem violations_list (items : List Value) : spec.violations (some (list items)) =
    if spec.kind.accepts (list []) then
      spec.lengthViolations (list items) ++ spec.allowedViolations (list items)
    else [spec.violation (.kind spec.kind)] := by
  have hkind : spec.kind.accepts (list items) = spec.kind.accepts (list []) := by
    cases spec.kind <;> rfl
  rw [Spec.violations, Option.filter_some_pos rfl]
  dsimp only
  have hrange : spec.rangeViolations (list items) = [] := rfl
  have hpattern : spec.patternViolations (list items) = [] := rfl
  rw [hkind, hrange, hpattern, List.nil_append, List.append_nil]

/-- Rearranged values break the same constraints. -/
theorem Rearranged.violations_eq {value value' : Value} (h : Rearranged value value') :
    spec.violations (some value) = spec.violations (some value') := by
  have hallowed {value value' : Value} (h : Rearranged value value') :
      spec.allowedViolations value = spec.allowedViolations value' := by
    unfold Spec.allowedViolations
    simp only [same_eq h]
  induction h with
  | refl value => rfl
  | trans _ _ ih ih' => rw [ih, ih']
  | swap front rest names =>
    rw [violations_record, violations_record, hallowed (.swap front rest names)]
  | field front name rest h _ =>
    rw [violations_record, violations_record, hallowed (.field front name rest h)]
  | @item front value value' rest h _ =>
    have hlength : spec.lengthViolations (list (front ++ value :: rest)) =
        spec.lengthViolations (list (front ++ value' :: rest)) := by
      simp only [Spec.lengthViolations, Spec.length?, List.length_append, List.length_cons]
    rw [violations_list, violations_list, hallowed (.item front rest h), hlength]

/-- Rearranged parameters pass the same checks. -/
theorem Rearranged.validate_eq {fields fields' : Fields Value}
    (h : Rearranged (record fields) (record fields')) (specs : List Spec) :
    validate fields specs = validate fields' specs := by
  have hfound {value value' : Value} (h : Rearranged value value') (spec : Spec) :
      spec.violations ((Engine.payload value).get? spec.name) =
        spec.violations ((Engine.payload value').get? spec.name) := by
    induction h with
    | refl value => rfl
    | trans _ _ ih ih' => rw [ih, ih']
    | swap front rest names => exact congrArg _ (Fields.get?_swap names front rest _)
    | @field front name value value' rest h _ =>
      change spec.violations (Fields.get? (front ++ (name, value) :: rest) _) =
        spec.violations (Fields.get? (front ++ (name, value') :: rest) _)
      rw [Fields.get?_append, Fields.get?_append, Fields.get?_cons, Fields.get?_cons]
      cases Fields.get? front spec.name with
      | some found => rfl
      | none =>
        split
        · exact h.violations_eq spec
        · rfl
    | item front rest _ _ => rfl
  unfold validate
  congr 2
  funext spec
  exact hfound h spec

end

end Value

end Rulebook
