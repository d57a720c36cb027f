import Mathlib
import Rulebook.Proofs.Parameter.Delivery
import Rulebook.Proofs.Parameter.Verdicts

/-!
# Checking parameters that arrive as texts

Texts of parameters are read as values before the values are checked. What is found wrong on the way is
collected in two passes and put in the order of the declarations. Violations in that order are known if
those of every single parameter are (`eq_of_filter_eq`), so the two passes can be told as one over the
declarations: `strings_validated`.
-/

namespace Rulebook

/-! ### Fields that are read one by one -/

namespace Fields

variable {α β : Type}

theorem get?_eq_none {fields : Fields α} {name : String} (h : name ∉ fields.names) :
    fields.get? name = none := by
  induction fields with
  | nil => rfl
  | cons field rest ih =>
    obtain ⟨hfirst, hrest⟩ := not_or.1 (mt List.mem_cons.2 h)
    rw [get?_cons, if_neg (Ne.symm hfirst), ih hrest]

/-- The fields that can be read, with what is read. -/
theorem get?_filterMap (read : String → α → Option β) {fields : Fields α}
    (h : fields.names.Nodup) (name : String) :
    get? (fields.filterMap fun field => (read field.1 field.2).map fun value => (field.1, value)) name =
      (fields.get? name).bind (read name) := by
  induction fields with
  | nil => rfl
  | cons field rest ih =>
    obtain ⟨hfirst, hrest⟩ := List.nodup_cons.1 h
    rw [List.filterMap_cons, get?_cons]
    by_cases hname : field.1 = name
    · subst hname
      rw [if_pos rfl, Option.bind_some]
      cases hread : read field.1 field.2 with
      | some value => exact if_pos rfl
      | none =>
        rw [Option.map_none]
        show get? (rest.filterMap _) field.1 = none
        rw [ih hrest, get?_eq_none hfirst, Option.bind_none]
    · rw [if_neg hname, ← ih hrest]
      cases read field.1 field.2 with
      | some value => exact if_neg hname
      | none => rfl

end Fields

namespace Parameter

variable {parameters : Fields String} {specs : List Spec}

/-! ### Violations in order -/

/-- Violations that are in the order of the declarations. -/
def InOrder (specs : List Spec) (violations : List Violation) : Prop :=
  violations.Pairwise fun a b => declaredAt specs a.parameter ≤ declaredAt specs b.parameter

theorem inOrder_inDeclarationOrder (specs : List Spec) (violations : List Violation) :
    InOrder specs (inDeclarationOrder specs violations) := by
  have hpairwise := @List.pairwise_mergeSort Violation (fun a b =>
      decide (declaredAt specs a.parameter ≤ declaredAt specs b.parameter))
    (fun a b c hab hbc => decide_eq_true
      (Nat.le_trans (of_decide_eq_true hab) (of_decide_eq_true hbc)))
    (fun a b => by
      rw [Bool.or_eq_true]
      exact (Nat.le_total _ _).imp decide_eq_true decide_eq_true) violations
  exact hpairwise.imp of_decide_eq_true

/-- Whether every violation is by a declared parameter. -/
def Declared (specs : List Spec) (violations : List Violation) : Prop :=
  ∀ violation ∈ violations, ∃ spec ∈ specs, spec.name = violation.parameter

/-- Different declared names have different places. -/
theorem eq_of_declaredAt_eq {name name' : String} (hname : ∃ spec ∈ specs, spec.name = name)
    (h : declaredAt specs name = declaredAt specs name') : name = name' := by
  have hlt : declaredAt specs name < specs.length :=
    List.findIdx_lt_length_of_exists (by simpa using hname)
  have hfound := List.findIdx_getElem (p := fun spec : Spec => spec.name == name) (w := hlt)
  have hfound' := List.findIdx_getElem (p := fun spec : Spec => spec.name == name') (w := h ▸ hlt)
  change specs.findIdx _ = specs.findIdx _ at h
  simp only [h, beq_iff_eq] at hfound hfound'
  exact hfound.symm.trans hfound'

/-- The first one of violations in order is not behind any of them. -/
theorem declaredAt_head_le {a b : Violation} {first second : List Violation}
    (hsecond : InOrder specs (b :: second))
    (h : ∀ name, (a :: first).filter (·.parameter == name) =
      (b :: second).filter (·.parameter == name)) :
    declaredAt specs b.parameter ≤ declaredAt specs a.parameter := by
  have ha : a ∈ (b :: second).filter (·.parameter == a.parameter) := by
    rw [← h]
    simp
  rcases List.mem_cons.1 (List.mem_filter.1 ha).1 with heq | hmem
  · rw [heq]
  · exact (List.pairwise_cons.1 hsecond).1 a hmem

/-- Violations in order are known if those of every parameter are. -/
theorem eq_of_filter_eq {first second : List Violation} (hdeclared : Declared specs first)
    (hfirst : InOrder specs first) (hsecond : InOrder specs second)
    (h : ∀ name, first.filter (·.parameter == name) = second.filter (·.parameter == name)) :
    first = second := by
  induction first generalizing second with
  | nil =>
    cases second with
    | nil => rfl
    | cons b second => simpa using h b.parameter
  | cons a first ih =>
    cases second with
    | nil => simpa using h a.parameter
    | cons b second =>
      -- each head occurs in the other list and is the least there, so both are by one parameter
      have hba := declaredAt_head_le hsecond h
      have hab := declaredAt_head_le hfirst fun name => (h name).symm
      obtain ⟨-, hfirst⟩ := List.pairwise_cons.1 hfirst
      obtain ⟨-, hrest⟩ := List.pairwise_cons.1 hsecond
      have hname : a.parameter = b.parameter :=
        eq_of_declaredAt_eq (hdeclared a List.mem_cons_self) (Nat.le_antisymm hab hba)
      have hhead := h a.parameter
      rw [List.filter_cons, if_pos (beq_self_eq_true _), List.filter_cons,
        if_pos (by simp [hname])] at hhead
      obtain ⟨rfl, hown⟩ := List.cons.inj hhead
      refine congrArg (a :: ·) (ih (fun c hc => hdeclared c (List.mem_cons_of_mem _ hc)) hfirst
        hrest fun name => ?_)
      by_cases hown' : a.parameter = name
      · rw [← hown', hown]
      · have := h name
        rwa [List.filter_cons_of_neg (by simpa using hown'),
          List.filter_cons_of_neg (by simpa using hown')] at this

/-! ### Reports of declarations -/

section Reports

variable {report : Spec → List Violation}
  (hreport : ∀ spec ∈ specs, ∀ violation ∈ report spec, violation.parameter = spec.name)

include hreport

theorem declared_flatMap : Declared specs (specs.flatMap report) := by
  intro violation hviolation
  obtain ⟨spec, hspec, hmem⟩ := List.mem_flatMap.1 hviolation
  exact ⟨spec, hspec, (hreport spec hspec violation hmem).symm⟩

/-- What the declarations report, one after the other, is in their order. -/
theorem inOrder_flatMap (hnames : (specs.map (·.name)).Nodup) :
    InOrder specs (specs.flatMap report) := by
  have hplace (i : Nat) (hi : i < specs.length) : declaredAt specs specs[i].name = i := by
    refine (List.findIdx_eq hi).2 ⟨beq_self_eq_true _, fun j hj => ?_⟩
    rw [beq_eq_false_iff_ne]
    intro heq
    have hj' : j < (specs.map (·.name)).length := by
      rw [List.length_map]
      omega
    have hi' : i < (specs.map (·.name)).length := by rwa [List.length_map]
    have hsame : j = i := (@List.Nodup.getElem_inj_iff _ _ hnames j hj' i hi').1 (by simpa using heq)
    omega
  refine List.pairwise_flatMap.2 ⟨fun spec hspec => ?_, ?_⟩
  · refine List.pairwise_of_forall_mem_list fun a ha b hb => ?_
    rw [hreport spec hspec a ha, hreport spec hspec b hb]
  · refine List.pairwise_iff_getElem.2 fun i j hi hj hij a ha b hb => ?_
    rw [hreport _ (List.getElem_mem hi) a ha, hreport _ (List.getElem_mem hj) b hb, hplace, hplace]
    exact hij.le

end Reports

/-- The declaration of a name, if every name is declared once. -/
theorem declarations_eq (hnames : (specs.map (·.name)).Nodup) {spec : Spec} (hspec : spec ∈ specs) :
    declarations specs spec.name = [spec] := by
  induction specs with
  | nil => cases hspec
  | cons first rest ih =>
    obtain ⟨hfirst, hrest⟩ := List.nodup_cons.1 hnames
    have hother : first.name ∉ rest.map (·.name) := hfirst
    rw [declarations, List.filter_cons]
    rcases List.mem_cons.1 hspec with rfl | hspec
    · rw [if_pos (beq_self_eq_true _), List.filter_eq_nil_iff.2]
      intro spec' hspec'
      rw [beq_iff_eq]
      exact fun heq => hother (heq ▸ List.mem_map_of_mem hspec')
    · rw [if_neg]
      · exact ih hrest hspec
      · rw [beq_iff_eq]
        exact fun heq => hother (heq ▸ List.mem_map_of_mem hspec)

theorem declarations_eq_nil {name : String} (h : ¬∃ spec ∈ specs, spec.name = name) :
    declarations specs name = [] :=
  List.filter_eq_nil_iff.2 fun spec hspec => by
    rw [beq_iff_eq]
    exact fun heq => h ⟨spec, hspec, heq⟩

/-! ### Texts that cannot be read -/

/-- The violation by a text that cannot be read as a value of the declared kind. -/
def Spec.misread (spec : Spec) (raw : String) : Violation := ⟨spec.name, .kind spec.kind, some raw⟩

/-- What is wrong with a parameter whose text, if it was supplied, is `raw`: only that the text cannot
be read, or else what is wrong with the value. -/
def Spec.report (spec : Spec) : Option String → List Violation
  | none => spec.violations none
  | some raw =>
    match spec.kind.coerce raw with
    | some value => spec.violations (some value)
    | none => [spec.misread raw]

theorem Spec.parameter_of_mem_report {spec : Spec} {raw : Option String} {violation : Violation}
    (h : violation ∈ spec.report raw) : violation.parameter = spec.name := by
  unfold report at h
  split at h
  · exact parameter_of_mem_violations h
  · split at h
    · exact parameter_of_mem_violations h
    · rw [List.mem_singleton.1 h]
      rfl

theorem coerceOne_of_declared (hnames : (specs.map (·.name)).Nodup) {spec : Spec}
    (hspec : spec ∈ specs) (raw : String) : coerceOne specs spec.name raw =
      match spec.kind.coerce raw with
      | some value => .ok value
      | none => .error (spec.misread raw) := by
  rw [coerceOne, find?_name_of_nodup hnames hspec]
  rfl

/-- A text that cannot be read is that of a declared parameter. -/
theorem of_coerceOne_eq_error {name raw : String} {violation : Violation}
    (h : coerceOne specs name raw = .error violation) :
    violation.parameter = name ∧ ∃ spec ∈ specs, spec.name = name := by
  unfold coerceOne at h
  split at h
  · rename_i spec hfind
    split at h
    · cases h
    · cases h
      exact ⟨rfl, spec, List.mem_of_find?_eq_some hfind, by simpa using List.find?_some hfind⟩
  · cases h

/-- What is read under a name. -/
theorem get?_coerceAll (hparameters : parameters.names.Nodup) (name : String) :
    (coerceAll parameters specs).1.get? name =
      (parameters.get? name).bind fun raw => (coerceOne specs name raw).toOption :=
  Fields.get?_filterMap (fun name raw => (coerceOne specs name raw).toOption) hparameters name

/-- What cannot be read under a name. -/
theorem filter_coerceAll (hparameters : parameters.names.Nodup) (name : String) :
    (coerceAll parameters specs).2.filter (·.parameter == name) =
      match (parameters.get? name).map (coerceOne specs name) with
      | some (.error violation) => [violation]
      | _ => [] := by
  rw [coerceAll, filter_inDeclarationOrder]
  induction parameters with
  | nil => rfl
  | cons field rest ih =>
    obtain ⟨hfirst, hrest⟩ := List.nodup_cons.1 hparameters
    have ih := ih hrest
    rw [List.filterMap_cons, Fields.get?_cons]
    by_cases hname : field.1 = name
    · subst hname
      rw [Fields.get?_eq_none hfirst] at ih
      rw [if_pos rfl, Option.map_some]
      cases hread : coerceOne specs field.1 field.2 with
      | ok value => simpa [hread] using ih
      | error violation =>
        have hown := (of_coerceOne_eq_error hread).1
        simpa [hread, hown] using ih
    · rw [if_neg hname, ← ih]
      cases hread : coerceOne specs field.1 field.2 with
      | ok value => simp [hread]
      | error violation =>
        have hown := (of_coerceOne_eq_error hread).1
        simp [hread, hown, hname]

theorem declared_coerceAll (parameters : Fields String) (specs : List Spec) :
    Declared specs (coerceAll parameters specs).2 := by
  intro violation hviolation
  rw [coerceAll] at hviolation
  obtain ⟨field, -, hfield⟩ := List.mem_filterMap.1 ((List.mergeSort_perm _ _).mem_iff.1 hviolation)
  dsimp only at hfield
  split at hfield
  · cases hfield
  · rename_i found hread
    cases hfield
    obtain ⟨hname, hdeclared⟩ := of_coerceOne_eq_error hread
    rwa [hname]

/-! ### Values that were read -/

/-- A value that was read is of its kind and not missing. -/
theorem Kind.accepts_of_coerce {kind : Kind} {raw : String} {value : Value}
    (h : kind.coerce raw = some value) : kind.accepts value = true ∧ value.isMissing = false := by
  cases kind with
  | string =>
    cases h
    exact ⟨rfl, rfl⟩
  | any =>
    cases h
    exact ⟨rfl, rfl⟩
  | integer =>
    obtain ⟨n, -, rfl⟩ := Option.map_eq_some_iff.1 h
    exact ⟨rfl, rfl⟩
  | number =>
    obtain ⟨x, -, rfl⟩ := Option.map_eq_some_iff.1 h
    exact ⟨rfl, rfl⟩
  | boolean =>
    simp only [coerce] at h
    split at h
    · cases h
      exact ⟨rfl, rfl⟩
    · split at h <;> cases h
      exact ⟨rfl, rfl⟩
  | object =>
    have haccepts := (Option.filter_eq_some_iff.1 h).2
    exact ⟨haccepts, by cases value <;> first | rfl | cases haccepts⟩
  | array =>
    have haccepts := (Option.filter_eq_some_iff.1 h).2
    exact ⟨haccepts, by cases value <;> first | rfl | cases haccepts⟩

/-- A constraint on values of the declared kind. -/
def Constraint.isLimit : Constraint → Bool
  | .required => false
  | .kind _ => false
  | _ => true

/-- A value of the declared kind only breaks limits. -/
theorem Spec.isLimit_of_mem_violations {spec : Spec} {value : Value}
    (haccepts : spec.kind.accepts value = true) (hmissing : value.isMissing = false)
    {violation : Violation} (h : violation ∈ spec.violations (some value)) :
    violation.constraint.isLimit = true := by
  rw [violations, Option.filter_some_pos (by simp [hmissing])] at h
  dsimp only at h
  rw [if_pos haccepts] at h
  simp only [List.mem_append] at h
  rcases h with ((hrange | hlength) | hpattern) | hallowed
  · cases value <;> grind [rangeViolations, Spec.violation, Constraint.isLimit]
  · grind [lengthViolations, Spec.violation, Constraint.isLimit]
  · cases value <;> grind [patternViolations, Spec.violation, Constraint.isLimit]
  · grind [allowedViolations, Spec.violation, Constraint.isLimit]

theorem Spec.violations_none (spec : Spec) :
    spec.violations none = if spec.required then [spec.violation .required] else [] := rfl

/-- That a parameter is not of its kind is reported exactly if its text cannot be read, and that it is
missing exactly if it is required and was not supplied. -/
theorem Spec.of_mem_report (spec : Spec) (raw : Option String) :
    ((∃ violation ∈ spec.report raw, ∃ kind, violation.constraint = .kind kind) ↔
        ∃ text, raw = some text ∧ spec.kind.coerce text = none) ∧
      ((∃ violation ∈ spec.report raw, violation.constraint = .required) ↔
        spec.required = true ∧ raw = none) := by
  cases raw with
  | none =>
    rw [report, violations_none]
    cases spec.required <;> simp [violation]
  | some text =>
    cases hread : spec.kind.coerce text with
    | none => simp [report, hread, misread]
    | some value =>
      obtain ⟨haccepts, hmissing⟩ := Kind.accepts_of_coerce hread
      have hlimit : ∀ violation ∈ spec.report (some text), violation.constraint.isLimit = true := by
        intro violation hviolation
        rw [report, hread] at hviolation
        exact isLimit_of_mem_violations haccepts hmissing hviolation
      constructor
      · refine iff_of_false ?_ (by simp [hread])
        rintro ⟨violation, hviolation, kind, hkind⟩
        have := hlimit violation hviolation
        rw [hkind] at this
        cases this
      · refine iff_of_false ?_ (by simp)
        rintro ⟨violation, hviolation, hrequired⟩
        have := hlimit violation hviolation
        rw [hrequired] at this
        cases this

/-! ### Both passes -/

/-- What a declaration reports when the texts that cannot be read are known. -/
theorem report_eq (hparameters : parameters.names.Nodup) (hnames : (specs.map (·.name)).Nodup)
    {spec : Spec} (hspec : spec ∈ specs) :
    let (values, unread) := coerceAll parameters specs
    spec.report (parameters.get? spec.name) = unread.filter (·.parameter == spec.name) ++
      if unread.any (·.parameter == spec.name) then []
      else spec.violations (values.get? spec.name) := by
  dsimp only
  have hany : (coerceAll parameters specs).2.any (·.parameter == spec.name) =
      !((coerceAll parameters specs).2.filter (·.parameter == spec.name)).isEmpty := by
    rw [Bool.eq_iff_iff, List.any_eq_true, Bool.not_eq_true', List.isEmpty_eq_false_iff,
      Ne, List.filter_eq_nil_iff]
    simp
  rw [hany, filter_coerceAll hparameters, get?_coerceAll hparameters]
  cases parameters.get? spec.name with
  | none => rfl
  | some raw =>
    rw [Option.map_some, Option.bind_some, coerceOne_of_declared hnames hspec, Spec.report]
    cases spec.kind.coerce raw <;> rfl

/-- What both passes find, told as one. -/
theorem inDeclarationOrder_eq (hparameters : parameters.names.Nodup)
    (hnames : (specs.map (·.name)).Nodup) :
    let (values, unread) := coerceAll parameters specs
    inDeclarationOrder specs (unread ++ specs.flatMap fun spec =>
        if unread.any (·.parameter == spec.name) then []
        else spec.violations (values.get? spec.name)) =
      specs.flatMap fun spec => spec.report (parameters.get? spec.name) := by
  dsimp only
  have hbroken : ∀ spec ∈ specs, ∀ violation ∈
      (if (coerceAll parameters specs).2.any (·.parameter == spec.name) then []
        else spec.violations ((coerceAll parameters specs).1.get? spec.name)),
      violation.parameter = spec.name := by
    intro spec _ violation h
    split at h
    · cases h
    · exact Spec.parameter_of_mem_violations h
  have hreport : ∀ spec ∈ specs, ∀ violation ∈ spec.report (parameters.get? spec.name),
      violation.parameter = spec.name := fun spec _ violation => Spec.parameter_of_mem_report
  refine (eq_of_filter_eq (declared_flatMap hreport) (inOrder_flatMap hreport hnames)
    (inOrder_inDeclarationOrder specs _) fun name => ?_).symm
  rw [filter_inDeclarationOrder, List.filter_append, filter_flatMap hbroken, filter_flatMap hreport]
  by_cases hname : ∃ spec ∈ specs, spec.name = name
  · obtain ⟨spec, hspec, rfl⟩ := hname
    rw [declarations_eq hnames hspec, List.flatMap_singleton, List.flatMap_singleton]
    exact report_eq hparameters hnames hspec
  · rw [declarations_eq_nil hname, List.flatMap_nil, List.flatMap_nil, List.append_nil, eq_comm,
      List.filter_eq_nil_iff]
    intro violation hviolation hparameter
    obtain ⟨spec, hspec, hdeclared⟩ := declared_coerceAll parameters specs violation hviolation
    exact hname ⟨spec, hspec, hdeclared.trans (eq_of_beq hparameter)⟩

theorem verdict_eq_ok_iff {α : Type} {violations : List Violation} {a b : α} :
    verdict violations a = .ok b ↔ violations = [] ∧ a = b := by
  refine ⟨verdict_eq_ok, ?_⟩
  rintro ⟨rfl, rfl⟩
  rfl

theorem inDeclarationOrder_eq_nil_iff {violations : List Violation} :
    inDeclarationOrder specs violations = [] ↔ violations = [] :=
  ⟨eq_nil_of_inDeclarationOrder, by rintro rfl; exact inDeclarationOrder_nil specs⟩

/-- Texts are accepted exactly if they can be read and what is read is accepted. -/
theorem validateStrings_eq_ok_iff {values : Fields Value} :
    validateStrings parameters specs = .ok values ↔
      coerce parameters specs = .ok values ∧ validate values specs = .ok () := by
  rw [validateStrings, coerce, validate]
  dsimp only
  rw [verdict_eq_ok_iff, verdict_eq_ok_iff, verdict_eq_ok_iff, inDeclarationOrder_eq_nil_iff,
    List.append_eq_nil_iff]
  constructor
  · rintro ⟨⟨hunread, hbroken⟩, rfl⟩
    rw [hunread] at hbroken
    exact ⟨⟨hunread, rfl⟩, hbroken, rfl⟩
  · rintro ⟨⟨hunread, rfl⟩, hbroken, -⟩
    rw [hunread]
    exact ⟨⟨rfl, hbroken⟩, rfl⟩

theorem eq_of_verdict_eq_error {α : Type} {violations : List Violation} {value : α}
    {rejection : Rejection} (h : verdict violations value = .error rejection) :
    rejection.violations = violations := by
  rw [verdict] at h
  split at h
  · cases h
  · cases h
    rfl

/-- **Checking texts is reading them and checking the values.** Texts are accepted with the values for
which both succeed. When they are refused, every declaration in turn reports that the text of its
parameter cannot be read, and nothing else, or else what is wrong with the value. -/
theorem strings_validated (parameters : Fields String) (specs : List Spec) :
    (∀ values, validateStrings parameters specs = .ok values ↔
      coerce parameters specs = .ok values ∧ validate values specs = .ok ()) ∧
    ∀ rejection, validateStrings parameters specs = .error rejection →
      parameters.names.Nodup → (specs.map (·.name)).Nodup →
      rejection.violations =
          specs.flatMap (fun spec => spec.report (parameters.get? spec.name)) ∧
        ∀ spec ∈ specs,
          ((∃ violation ∈ rejection.violations, violation.parameter = spec.name ∧
              ∃ kind, violation.constraint = .kind kind) ↔
            ∃ raw, parameters.get? spec.name = some raw ∧ spec.kind.coerce raw = none) ∧
          ((∃ violation ∈ rejection.violations, violation.parameter = spec.name ∧
              violation.constraint = .required) ↔
            spec.required = true ∧ parameters.get? spec.name = none) := by
  refine ⟨fun values => validateStrings_eq_ok_iff, fun rejection h hparameters hnames => ?_⟩
  have hviolations := eq_of_verdict_eq_error h
  rw [inDeclarationOrder_eq hparameters hnames] at hviolations
  refine ⟨hviolations, fun spec hspec => ?_⟩
  have hown : ∀ violation, violation ∈ rejection.violations ∧ violation.parameter = spec.name ↔
      violation ∈ spec.report (parameters.get? spec.name) := by
    intro violation
    have hfilter := filter_flatMap
      (fun spec (_ : spec ∈ specs) violation =>
        @Spec.parameter_of_mem_report spec (parameters.get? spec.name) violation)
      spec.name
    rw [declarations_eq hnames hspec, List.flatMap_singleton] at hfilter
    rw [hviolations, ← hfilter, List.mem_filter, beq_iff_eq]
  obtain ⟨hkind, hrequired⟩ := spec.of_mem_report (parameters.get? spec.name)
  rw [← hkind, ← hrequired]
  simp only [← hown, and_assoc, and_self]

/-- Of two declared parameters one is misread and the other one is missing. -/
theorem strings_validated_of_two :
    let specs : List Spec :=
      [{ name := "name", kind := .string, required := true }, { name := "age", kind := .integer }]
    let parameters : Fields String := [("age", "old")]
    parameters.names.Nodup ∧ (specs.map (·.name)).Nodup ∧
      ∃ rejection, validateStrings parameters specs = .error rejection ∧
        rejection.violations =
          [⟨"name", .required, none⟩, ⟨"age", .kind .integer, some "old"⟩] := by
  intro specs parameters
  have hparameters : parameters.names.Nodup := by decide
  have hnames : (specs.map (·.name)).Nodup := by decide
  obtain ⟨haccepted, hrefused⟩ := strings_validated parameters specs
  refine ⟨hparameters, hnames, ?_⟩
  cases hresult : validateStrings parameters specs with
  | ok values =>
    -- nothing is coerced, as the text of the integer cannot be read
    have hcoerce := ((haccepted values).1 hresult).1
    have hunread := (verdict_eq_ok hcoerce).1
    have hown := @filter_coerceAll parameters specs hparameters "age"
    rw [show (coerceAll parameters specs).2 = [] from hunread] at hown
    cases hown
  | error rejection => exact ⟨rejection, rfl, (hrefused rejection hresult hparameters hnames).1⟩

end Parameter
end Rulebook
