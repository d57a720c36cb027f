import Mathlib
import Rulebook.Proofs.Parameter.Strings
import Rulebook.Proofs.Value.Rearranged

/-!
# The order in which parameters are enumerated

Parameters have no order of their own. In whatever order they are gone through, the values that their
texts are read as are the same, and so are the violations that are found on the way, in the same order:
`sameVerdict_coerce` and `sameVerdict_validateStrings`.
-/

namespace Rulebook.Parameter

variable {parameters parameters' : Fields String}

/-- Verdicts that say the same: the same rejection, or the same parameters, in whatever order. -/
inductive SameVerdict :
    Except Rejection (Fields Value) → Except Rejection (Fields Value) → Prop where
  | ok {values values' : Fields Value} (perm : values.Perm values') :
    SameVerdict (.ok values) (.ok values')
  | error (rejection : Rejection) : SameVerdict (.error rejection) (.error rejection)

theorem sameVerdict_verdict {values values' : Fields Value} (h : values.Perm values')
    (violations : List Violation) :
    SameVerdict (verdict violations values) (verdict violations values') := by
  unfold verdict
  split
  · exact .ok h
  · exact .error _

/-- What is read from texts stands under the names of the texts, as far as they can be read. -/
theorem names_coerceAll_sublist (parameters : Fields String) (specs : List Spec) :
    (coerceAll parameters specs).1.names.Sublist parameters.names := by
  induction parameters with
  | nil => exact .slnil
  | cons field rest ih =>
    unfold coerceAll at ih ⊢
    dsimp only at ih ⊢
    rw [List.filterMap_cons]
    cases coerceOne specs field.1 field.2 with
    | ok value => exact ih.cons_cons field.1
    | error violation => exact ih.cons field.1

section

variable (h : parameters.Perm parameters') (hnames : parameters.names.Nodup) (specs : List Spec)

include h

theorem perm_coerceAll : (coerceAll parameters specs).1.Perm (coerceAll parameters' specs).1 :=
  h.filterMap _

include hnames

theorem unread_coerceAll : (coerceAll parameters specs).2 = (coerceAll parameters' specs).2 := by
  refine eq_of_filter_eq (declared_coerceAll parameters specs) (inOrder_inDeclarationOrder _ _)
    (inOrder_inDeclarationOrder _ _) fun name => ?_
  rw [filter_coerceAll hnames, filter_coerceAll (Fields.nodup_of_perm h hnames),
    Fields.get?_of_perm h hnames]

/-- The texts of parameters are read as the same values, or the same violations are found. -/
theorem sameVerdict_coerce : SameVerdict (coerce parameters specs) (coerce parameters' specs) := by
  unfold coerce
  dsimp only
  rw [unread_coerceAll h hnames]
  exact sameVerdict_verdict (perm_coerceAll h specs) _

/-- The texts of parameters are accepted as the same values, or the same violations are found. -/
theorem sameVerdict_validateStrings :
    SameVerdict (validateStrings parameters specs) (validateStrings parameters' specs) := by
  have hvalues (name : String) : (coerceAll parameters specs).1.get? name =
      (coerceAll parameters' specs).1.get? name :=
    Fields.get?_of_perm (perm_coerceAll h specs) ((names_coerceAll_sublist _ _).nodup hnames) name
  unfold validateStrings
  dsimp only
  rw [unread_coerceAll h hnames]
  simp only [hvalues]
  exact sameVerdict_verdict (perm_coerceAll h specs) _

end

end Rulebook.Parameter
