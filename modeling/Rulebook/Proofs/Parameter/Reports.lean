import Mathlib
import Rulebook.Proofs.Decimal.Values
import Rulebook.Proofs.Parameter.Strings

/-!
# What a check reports

Which constraints of a declaration a parameter breaks is said by `Spec.Breaks`, without regard to how
they are looked for. A check finds these and no others, each one once and in the order of the
constraints, for one declaration after the other: `reports_complete`.
-/

namespace Rulebook.Parameter

/-! ### Broken constraints -/

/-- Whether a parameter is absent, or has a value that stands for something missing. -/
inductive Missing : Option Value → Prop where
  | absent : Missing none
  | null : Missing (some .null)
  | undefined : Missing (some .undefined)

/-- Which values are of a kind. -/
inductive Kind.Covers : Kind → Value → Prop where
  | any (value : Value) : Covers .any value
  | string (s : String) : Covers .string (.text s)
  | integer {n : Number} {k : Int} (h : n.toInt? = some k) : Covers .integer (.number n)
  | number (n : Number) : Covers .number (.number n)
  | boolean (b : Bool) : Covers .boolean (.bool b)
  | object (fields : Fields Value) : Covers .object (.record fields)
  | array (items : List Value) : Covers .array (.list items)

/-- The values that have a length: texts, counted in characters, and lists, counted in items. -/
inductive HasLength : Value → Nat → Prop where
  | text (s : String) : HasLength (.text s) s.toList.length
  | list (items : List Value) : HasLength (.list items) items.length

namespace Spec

/-- Which limits of a declaration a value does not keep. Numbers are compared as the numbers that
their doubles are; what is not a number keeps every range. -/
inductive Exceeds (spec : Spec) : Value → Constraint → Prop where
  | min {n : Number} {limit : Float} {p q : Extended} (hlimit : spec.min = some limit)
      (hn : Double.value n.toFloat = some p) (hvalue : Double.value limit = some q) (h : p < q) :
      Exceeds spec (.number n) (.min limit)
  | max {n : Number} {limit : Float} {p q : Extended} (hlimit : spec.max = some limit)
      (hn : Double.value n.toFloat = some p) (hvalue : Double.value limit = some q) (h : q < p) :
      Exceeds spec (.number n) (.max limit)
  | minLength {value : Value} {least length : Nat} (hlimit : spec.minLength = some least)
      (hlength : HasLength value length) (h : length < least) :
      Exceeds spec value (.minLength least)
  | maxLength {value : Value} {most length : Nat} (hlimit : spec.maxLength = some most)
      (hlength : HasLength value length) (h : most < length) :
      Exceeds spec value (.maxLength most)
  /-- A text that is no pattern is found nowhere. -/
  | pattern {s text : String} (hlimit : spec.pattern = some text)
      (h : ∀ pattern, Pattern.read? text = some pattern → pattern.foundIn s = false) :
      Exceeds spec (.text s) (.pattern text)
  | allowed {value : Value} (hlimit : spec.allowed ≠ [])
      (h : ∀ item ∈ spec.allowed, item.same value = false) :
      Exceeds spec value .allowed

/-- Which constraints of a declaration a parameter breaks. A missing one only has to be optional, and
one that is not of the kind breaks nothing else. -/
inductive Breaks (spec : Spec) : Option Value → Constraint → Prop where
  | required {value : Option Value} (hmissing : Missing value) (h : spec.required = true) :
      Breaks spec value .required
  | kind {value : Value} (hpresent : ¬Missing (some value)) (h : ¬spec.kind.Covers value) :
      Breaks spec (some value) (.kind spec.kind)
  | limit {value : Value} {constraint : Constraint} (hpresent : ¬Missing (some value))
      (hkind : spec.kind.Covers value) (h : spec.Exceeds value constraint) :
      Breaks spec (some value) constraint

end Spec

/-- The place of a constraint in a report. -/
def Constraint.rank : Constraint → Nat
  | .required => 0
  | .kind _ => 1
  | .min _ => 2
  | .max _ => 3
  | .minLength _ => 4
  | .maxLength _ => 5
  | .pattern _ => 6
  | .allowed => 7

namespace Spec

/-- Whether a list of violations has one for each of some constraints, and no others, in the order of
the constraints. -/
structure Enumerates (spec : Spec) (broken : Constraint → Prop) (report : List Violation) : Prop where
  own : ∀ violation ∈ report, violation = spec.violation violation.constraint
  ordered : report.Pairwise fun a b => a.constraint.rank < b.constraint.rank
  complete : ∀ constraint, (∃ violation ∈ report, violation.constraint = constraint) ↔
    broken constraint

/-- What a declaration has to report of a parameter. -/
def Reports (spec : Spec) (value : Option Value) (report : List Violation) : Prop :=
  spec.Enumerates (spec.Breaks value) report

namespace Enumerates

variable {spec : Spec} {broken : Constraint → Prop} {report report' : List Violation}

/-- There is only one such list. -/
theorem eq (h : spec.Enumerates broken report) (h' : spec.Enumerates broken report') :
    report = report' := by
  have hmem {first second : List Violation} (hfirst : spec.Enumerates broken first)
      (hsecond : spec.Enumerates broken second) {violation : Violation}
      (hviolation : violation ∈ first) : violation ∈ second := by
    obtain ⟨found, hfound, hsame⟩ := (hsecond.complete violation.constraint).2
      ((hfirst.complete violation.constraint).1 ⟨violation, hviolation, rfl⟩)
    rwa [hfirst.own violation hviolation, ← hsame, ← hsecond.own found hfound]
  have hasymm : Std.Asymm fun a b : Violation => a.constraint.rank < b.constraint.rank :=
    ⟨fun _ _ => Nat.lt_asymm⟩
  have hirrefl : Std.Irrefl fun a b : Violation => a.constraint.rank < b.constraint.rank :=
    ⟨fun _ => Nat.lt_irrefl _⟩
  exact h.ordered.eq_of_mem_iff h'.ordered fun _ => ⟨hmem h h', hmem h' h⟩

theorem nil (h : ∀ constraint, ¬broken constraint) : spec.Enumerates broken [] where
  own _ hviolation := nomatch hviolation
  ordered := .nil
  complete constraint := iff_of_false (by simp) (h constraint)

theorem singleton {constraint : Constraint} (h : ∀ other, broken other ↔ other = constraint) :
    spec.Enumerates broken [spec.violation constraint] where
  own violation hviolation := by
    rw [List.mem_singleton.1 hviolation]
    rfl
  ordered := List.pairwise_singleton _ _
  complete other := by
    rw [h, eq_comm]
    simp [violation]

theorem congr {broken' : Constraint → Prop} (h : spec.Enumerates broken report)
    (hbroken : ∀ constraint, broken constraint ↔ broken' constraint) :
    spec.Enumerates broken' report :=
  ⟨h.own, h.ordered, fun constraint => (h.complete constraint).trans (hbroken constraint)⟩

/-- Nothing is listed only if nothing is broken. -/
theorem eq_nil_iff (h : spec.Enumerates broken report) :
    report = [] ↔ ∀ constraint, ¬broken constraint := by
  refine ⟨?_, fun hnone => h.eq (nil hnone)⟩
  rintro rfl constraint hbroken
  obtain ⟨violation, hviolation, -⟩ := (h.complete constraint).2 hbroken
  cases hviolation

end Enumerates
end Spec

/-! ### Looking for broken constraints -/

theorem isMissing_iff {value : Value} : value.isMissing = true ↔ Missing (some value) := by
  constructor
  · intro h
    cases value with
    | null => exact .null
    | undefined => exact .undefined
    | _ => cases h
  · rintro (_ | _) <;> rfl

theorem Kind.accepts_iff {kind : Kind} {value : Value} :
    kind.accepts value = true ↔ kind.Covers value := by
  constructor
  · intro h
    cases kind with
    | any => exact .any value
    | integer =>
      cases value with
      | number n => cases n with
        | double x => cases h
        | _ => exact .integer rfl
      | _ => cases h
    | string => cases value <;> first | exact .string _ | cases h
    | number => cases value <;> first | exact .number _ | cases h
    | boolean => cases value <;> first | exact .boolean _ | cases h
    | object => cases value <;> first | exact .object _ | cases h
    | array => cases value <;> first | exact .array _ | cases h
  · rintro (_ | _ | @⟨n, k, h⟩ | _ | _ | _ | _)
    case integer =>
      cases n with
      | double x => cases h
      | _ => rfl
    all_goals rfl

namespace Spec

variable {spec : Spec} {value : Value} {violation : Violation}

theorem length?_eq_some_iff {length : Nat} : length? value = some length ↔ HasLength value length := by
  constructor
  · intro h
    cases value with
    | text s =>
      cases h
      exact .text s
    | list items =>
      cases h
      exact .list items
    | _ => cases h
  · rintro (s | items) <;> rfl

theorem matchesPattern_eq_false_iff {text s : String} : matchesPattern text s = false ↔
    ∀ pattern, Pattern.read? text = some pattern → pattern.foundIn s = false := by
  rw [matchesPattern]
  cases Pattern.read? text <;> simp

/-- Whether a value exceeds a limit of a certain rank. -/
def ExceedsAt (spec : Spec) (value : Value) (low high : Nat) (constraint : Constraint) : Prop :=
  spec.Exceeds value constraint ∧ low ≤ constraint.rank ∧ constraint.rank < high

theorem Enumerates.append {low mid high : Nat} {report report' : List Violation} (hlow : low ≤ mid)
    (hhigh : mid ≤ high) (h : spec.Enumerates (spec.ExceedsAt value low mid) report)
    (h' : spec.Enumerates (spec.ExceedsAt value mid high) report') :
    spec.Enumerates (spec.ExceedsAt value low high) (report ++ report') where
  own violation hviolation :=
    (List.mem_append.1 hviolation).elim (h.own violation) (h'.own violation)
  ordered := by
    refine List.pairwise_append.2 ⟨h.ordered, h'.ordered, fun a ha b hb => ?_⟩
    have hbelow := ((h.complete a.constraint).1 ⟨a, ha, rfl⟩).2.2
    have habove := ((h'.complete b.constraint).1 ⟨b, hb, rfl⟩).2.1
    omega
  complete constraint := by
    simp only [List.mem_append, or_and_right, exists_or, h.complete, h'.complete]
    constructor
    · rintro (⟨hexceeds, hrank⟩ | ⟨hexceeds, hrank⟩)
      · exact ⟨hexceeds, by omega⟩
      · exact ⟨hexceeds, by omega⟩
    · rintro ⟨hexceeds, hrank⟩
      rcases Nat.lt_or_ge constraint.rank mid with hlt | hge
      · exact .inl ⟨hexceeds, by omega⟩
      · exact .inr ⟨hexceeds, by omega⟩

/-- A limit that may be declared and is tested alone. -/
theorem enumerates_limit {α : Type} {limit : Option α} {fails : α → Prop} [DecidablePred fails]
    {constraint : α → Constraint} {broken : Constraint → Prop} {report : List Violation}
    (hnone : limit = none → report = [])
    (hsome : ∀ a, limit = some a →
      report = if fails a then [spec.violation (constraint a)] else [])
    (h : ∀ other, broken other ↔ ∃ a, limit = some a ∧ fails a ∧ other = constraint a) :
    spec.Enumerates broken report := by
  cases hlimit : limit with
  | none =>
    rw [hnone hlimit]
    exact .nil fun other hother => by simp [h, hlimit] at hother
  | some a =>
    rw [hsome a hlimit]
    split
    · rename_i ha
      exact .singleton fun other => by simp [h, hlimit, ha]
    · rename_i ha
      exact .nil fun other hother => by simp [h, hlimit, ha] at hother

theorem exceedsAt_min_iff {n : Number} {constraint : Constraint} :
    spec.ExceedsAt (.number n) 2 3 constraint ↔
      ∃ limit, spec.min = some limit ∧ n.toFloat < limit ∧ constraint = .min limit := by
  constructor
  · rintro ⟨hexceeds, hrank⟩
    cases hexceeds with
    | min hlimit hn hvalue h => exact ⟨_, hlimit, Double.lt_iff.2 ⟨_, _, hn, hvalue, h⟩, rfl⟩
    | _ => simp [Constraint.rank] at hrank
  · rintro ⟨limit, hlimit, hlt, rfl⟩
    obtain ⟨p, q, hn, hvalue, h⟩ := Double.lt_iff.1 hlt
    exact ⟨.min hlimit hn hvalue h, Nat.le_refl _, Nat.lt_succ_self _⟩

theorem exceedsAt_max_iff {n : Number} {constraint : Constraint} :
    spec.ExceedsAt (.number n) 3 4 constraint ↔
      ∃ limit, spec.max = some limit ∧ n.toFloat > limit ∧ constraint = .max limit := by
  constructor
  · rintro ⟨hexceeds, hrank⟩
    cases hexceeds with
    | max hlimit hn hvalue h => exact ⟨_, hlimit, Double.lt_iff.2 ⟨_, _, hvalue, hn, h⟩, rfl⟩
    | _ => simp [Constraint.rank] at hrank
  · rintro ⟨limit, hlimit, hlt, rfl⟩
    obtain ⟨p, q, hvalue, hn, h⟩ := Double.lt_iff.1 hlt
    exact ⟨.max hlimit hn hvalue h, Nat.le_refl _, Nat.lt_succ_self _⟩

theorem exceedsAt_minLength_iff {length : Nat} (hlength : length? value = some length)
    {constraint : Constraint} : spec.ExceedsAt value 4 5 constraint ↔
      ∃ least, spec.minLength = some least ∧ length < least ∧ constraint = .minLength least := by
  constructor
  · rintro ⟨hexceeds, hrank⟩
    cases hexceeds with
    | minLength hlimit hown h =>
      obtain rfl := Option.some.inj (hlength.symm.trans (length?_eq_some_iff.2 hown))
      exact ⟨_, hlimit, h, rfl⟩
    | _ => simp [Constraint.rank] at hrank
  · rintro ⟨least, hlimit, hlt, rfl⟩
    exact ⟨.minLength hlimit (length?_eq_some_iff.1 hlength) hlt, Nat.le_refl _, Nat.lt_succ_self _⟩

theorem exceedsAt_maxLength_iff {length : Nat} (hlength : length? value = some length)
    {constraint : Constraint} : spec.ExceedsAt value 5 6 constraint ↔
      ∃ most, spec.maxLength = some most ∧ length > most ∧ constraint = .maxLength most := by
  constructor
  · rintro ⟨hexceeds, hrank⟩
    cases hexceeds with
    | maxLength hlimit hown h =>
      obtain rfl := Option.some.inj (hlength.symm.trans (length?_eq_some_iff.2 hown))
      exact ⟨_, hlimit, h, rfl⟩
    | _ => simp [Constraint.rank] at hrank
  · rintro ⟨most, hlimit, hlt, rfl⟩
    exact ⟨.maxLength hlimit (length?_eq_some_iff.1 hlength) hlt, Nat.le_refl _, Nat.lt_succ_self _⟩

theorem exceedsAt_pattern_iff {s : String} {constraint : Constraint} :
    spec.ExceedsAt (.text s) 6 7 constraint ↔
      ∃ text, spec.pattern = some text ∧ matchesPattern text s = false ∧
        constraint = .pattern text := by
  constructor
  · rintro ⟨hexceeds, hrank⟩
    cases hexceeds with
    | pattern hlimit h => exact ⟨_, hlimit, matchesPattern_eq_false_iff.2 h, rfl⟩
    | _ => simp [Constraint.rank] at hrank
  · rintro ⟨text, hlimit, h, rfl⟩
    exact ⟨.pattern hlimit (matchesPattern_eq_false_iff.1 h), Nat.le_refl _, Nat.lt_succ_self _⟩

theorem exceedsAt_allowed_iff {constraint : Constraint} :
    spec.ExceedsAt value 7 8 constraint ↔
      (spec.allowed.isEmpty || spec.allowed.any (·.same value)) = false ∧
        constraint = .allowed := by
  have htest : (spec.allowed.isEmpty || spec.allowed.any (·.same value)) = false ↔
      spec.allowed ≠ [] ∧ ∀ item ∈ spec.allowed, item.same value = false := by simp
  rw [htest]
  constructor
  · rintro ⟨hexceeds, hrank⟩
    cases hexceeds with
    | allowed hlimit h => exact ⟨⟨hlimit, h⟩, rfl⟩
    | _ => simp [Constraint.rank] at hrank
  · rintro ⟨⟨hlimit, h⟩, rfl⟩
    exact ⟨.allowed hlimit h, by decide⟩

theorem enumerates_rangeViolations (spec : Spec) (value : Value) :
    spec.Enumerates (spec.ExceedsAt value 2 4) (spec.rangeViolations value) := by
  cases value with
  | number n =>
    refine .append (by decide : 2 ≤ 3) (by decide) ?_ ?_
    · exact enumerates_limit (fun h => by rw [h]) (fun limit h => by rw [h])
        fun _ => exceedsAt_min_iff
    · exact enumerates_limit (fun h => by rw [h]) (fun limit h => by rw [h])
        fun _ => exceedsAt_max_iff
  | _ =>
    refine .nil ?_
    rintro constraint ⟨_ | _, hrank⟩ <;> simp [Constraint.rank] at hrank

theorem enumerates_lengthViolations (spec : Spec) (value : Value) :
    spec.Enumerates (spec.ExceedsAt value 4 6) (spec.lengthViolations value) := by
  unfold lengthViolations
  cases hlength : length? value with
  | some length =>
    refine .append (by decide : 4 ≤ 5) (by decide) ?_ ?_
    · exact enumerates_limit (fun h => by rw [h]) (fun least h => by rw [h])
        fun _ => exceedsAt_minLength_iff hlength
    · exact enumerates_limit (fun h => by rw [h]) (fun most h => by rw [h])
        fun _ => exceedsAt_maxLength_iff hlength
  | none =>
    refine .nil ?_
    rintro constraint ⟨hexceeds, hrank⟩
    cases hexceeds with
    | minLength _ hown _ => cases hlength.symm.trans (length?_eq_some_iff.2 hown)
    | maxLength _ hown _ => cases hlength.symm.trans (length?_eq_some_iff.2 hown)
    | _ => simp [Constraint.rank] at hrank

theorem enumerates_patternViolations (spec : Spec) (value : Value) :
    spec.Enumerates (spec.ExceedsAt value 6 7) (spec.patternViolations value) := by
  cases value with
  | text s =>
    refine enumerates_limit (fun h => ?_) (fun text h => ?_) fun _ => exceedsAt_pattern_iff
    · rw [patternViolations, h]
    · rw [patternViolations, h]
      dsimp only
      cases matchesPattern text s <;> simp
  | _ =>
    refine .nil ?_
    rintro constraint ⟨_ | _, hrank⟩ <;> simp [Constraint.rank] at hrank

theorem enumerates_allowedViolations (spec : Spec) (value : Value) :
    spec.Enumerates (spec.ExceedsAt value 7 8) (spec.allowedViolations value) := by
  unfold allowedViolations
  split
  · rename_i hkept
    refine .nil fun constraint hconstraint => ?_
    rw [exceedsAt_allowed_iff, hkept] at hconstraint
    cases hconstraint.1
  · rename_i hbroken
    refine .singleton fun constraint => ?_
    rw [exceedsAt_allowed_iff, Bool.eq_false_iff]
    exact and_iff_right hbroken

/-- A limit stands behind the constraints that are no limits. -/
theorem exceedsAt_iff {constraint : Constraint} :
    spec.ExceedsAt value 2 8 constraint ↔ spec.Exceeds value constraint := by
  refine and_iff_left_of_imp fun h => ?_
  cases h <;> exact ⟨by simp only [Constraint.rank]; omega, by simp only [Constraint.rank]; omega⟩

/-- A check of one declaration reports what it has to. -/
theorem reports_violations (spec : Spec) (value : Option Value) :
    spec.Reports value (spec.violations value) := by
  by_cases hmissing : Missing value
  · have hmissed : spec.violations value = if spec.required then [spec.violation .required] else [] := by
      cases hmissing <;> rfl
    rw [hmissed]
    split
    · rename_i hrequired
      refine .singleton fun constraint => ⟨?_, ?_⟩
      · rintro (_ | ⟨hpresent, -⟩ | ⟨hpresent, -, -⟩)
        · rfl
        · exact absurd hmissing hpresent
        · exact absurd hmissing hpresent
      · rintro rfl
        exact .required hmissing hrequired
    · rename_i hrequired
      refine .nil ?_
      rintro constraint (⟨-, h⟩ | ⟨hpresent, -⟩ | ⟨hpresent, -, -⟩)
      · exact hrequired h
      · exact hpresent hmissing
      · exact hpresent hmissing
  · -- a value that is there is checked against its kind, and against the limits if it has this kind
    obtain ⟨value, rfl⟩ : ∃ found, value = some found := by
      cases value with
      | none => exact absurd .absent hmissing
      | some found => exact ⟨found, rfl⟩
    have hpresent : value.isMissing = false := by
      rw [← Bool.not_eq_true, isMissing_iff]
      exact hmissing
    rw [violations, Option.filter_some_pos (by simp [hpresent])]
    dsimp only
    split
    · rename_i haccepts
      have hkind := Kind.accepts_iff.1 haccepts
      have hlimits := (((spec.enumerates_rangeViolations value).append (by decide) (by decide)
        (spec.enumerates_lengthViolations value)).append (by decide) (by decide)
        (spec.enumerates_patternViolations value)).append (by decide) (by decide)
        (spec.enumerates_allowedViolations value)
      refine hlimits.congr fun constraint => exceedsAt_iff.trans ⟨.limit hmissing hkind, ?_⟩
      rintro (⟨h, -⟩ | ⟨-, h⟩ | ⟨-, -, h⟩)
      · exact absurd h hmissing
      · exact absurd hkind h
      · exact h
    · rename_i haccepts
      have hkind := mt Kind.accepts_iff.2 haccepts
      refine .singleton fun constraint => ⟨?_, ?_⟩
      · rintro (⟨h, -⟩ | ⟨-, h⟩ | ⟨-, h, -⟩)
        · exact absurd h hmissing
        · rfl
        · exact absurd h hkind
      · rintro rfl
        exact .kind hmissing hkind

end Spec

/-! ### Names in the order of their violations -/

namespace Rejection

/-- The names of the violations, one for each. -/
def names (rejection : Rejection) : List String := rejection.violations.map (·.parameter)

theorem parameters_append (violations : List Violation) (violation : Violation) :
    (Rejection.mk (violations ++ [violation])).parameters =
      if violation.parameter ∈ (Rejection.mk violations).parameters then
        (Rejection.mk violations).parameters
      else (Rejection.mk violations).parameters ++ [violation.parameter] := by
  simp only [parameters, List.foldl_append, List.foldl_cons, List.foldl_nil, List.contains_iff_mem]

/-- The names of a rejection are those of its violations, each one once, in the order in which they
come first. -/
theorem parameters_spec (rejection : Rejection) :
    (∀ name, name ∈ rejection.parameters ↔ name ∈ rejection.names) ∧
      rejection.parameters.Pairwise fun a b =>
        rejection.names.idxOf a < rejection.names.idxOf b := by
  obtain ⟨violations⟩ := rejection
  induction violations using List.reverseRecOn with
  | nil => exact ⟨fun name => Iff.rfl, .nil⟩
  | append_singleton violations violation ih =>
    obtain ⟨hmem, hordered⟩ := ih
    have hnames : (Rejection.mk (violations ++ [violation])).names =
        (Rejection.mk violations).names ++ [violation.parameter] := List.map_append
    have hplace {name : String} (h : name ∈ (Rejection.mk violations).parameters) :
        ((Rejection.mk violations).names ++ [violation.parameter]).idxOf name =
          (Rejection.mk violations).names.idxOf name :=
      List.idxOf_append_of_mem ((hmem name).1 h)
    have hkeep : (Rejection.mk violations).parameters.Pairwise fun a b =>
        ((Rejection.mk violations).names ++ [violation.parameter]).idxOf a <
          ((Rejection.mk violations).names ++ [violation.parameter]).idxOf b :=
      hordered.imp_of_mem fun ha hb hab => by rwa [hplace ha, hplace hb]
    rw [hnames, parameters_append]
    split
    · -- a name that was there before keeps its place
      rename_i hold
      refine ⟨fun name => ?_, hkeep⟩
      rw [List.mem_append, ← hmem, List.mem_singleton]
      exact ⟨.inl, fun h => h.elim id fun h => h ▸ hold⟩
    · -- a new name comes last
      rename_i hnew
      refine ⟨fun name => by rw [List.mem_append, List.mem_append, hmem], ?_⟩
      refine List.pairwise_append.2 ⟨hkeep, List.pairwise_singleton _ _, fun a ha b hb => ?_⟩
      rw [List.mem_singleton.1 hb, hplace ha,
        List.idxOf_append_of_notMem (mt (hmem _).2 hnew)]
      have := List.idxOf_lt_length_of_mem ((hmem a).1 ha)
      omega

end Rejection

/-- There is one list of reports for every list of declarations. -/
theorem forall₂_reports_iff {parameters : Fields Value} {specs : List Spec}
    {reports : List (List Violation)} :
    List.Forall₂ (fun spec report => spec.Reports (parameters.get? spec.name) report) specs reports ↔
      specs.map (fun spec => spec.violations (parameters.get? spec.name)) = reports := by
  have hiff (spec : Spec) (report : List Violation) :
      spec.Reports (parameters.get? spec.name) report ↔
        spec.violations (parameters.get? spec.name) = report := by
    refine ⟨(spec.reports_violations _).eq, ?_⟩
    rintro rfl
    exact spec.reports_violations _
  simp only [hiff]
  rw [← List.forall₂_map_left_iff, List.forall₂_eq_eq_eq]

/-- **A check is sound and complete in one pass.** Parameters are accepted exactly if they break no
constraint of any declaration, and refused with what every declaration in turn has to report. A
refusal names each parameter with a violation once, in the order of the first violations. -/
theorem reports_complete (parameters : Fields Value) (specs : List Spec) :
    (validate parameters specs = .ok () ↔
      ∀ spec ∈ specs, ∀ constraint, ¬spec.Breaks (parameters.get? spec.name) constraint) ∧
    ∀ rejection, (validate parameters specs = .error rejection ↔
        rejection.violations ≠ [] ∧ ∃ reports,
          List.Forall₂ (fun spec report => spec.Reports (parameters.get? spec.name) report)
            specs reports ∧
          rejection.violations = reports.flatten) ∧
      (∀ name, name ∈ rejection.parameters ↔ name ∈ rejection.names) ∧
      rejection.parameters.Pairwise fun a b =>
        rejection.names.idxOf a < rejection.names.idxOf b := by
  refine ⟨?_, fun rejection => ⟨?_, rejection.parameters_spec⟩⟩
  · rw [validate, verdict_eq_ok_iff, and_iff_left rfl, List.flatMap_eq_nil_iff]
    exact forall₂_congr fun spec _ => (spec.reports_violations _).eq_nil_iff
  · simp only [forall₂_reports_iff, exists_eq_left', ← List.flatMap_def]
    constructor
    · intro h
      have hviolations := eq_of_verdict_eq_error h
      refine ⟨?_, hviolations⟩
      intro hnil
      rw [validate, ← hviolations, hnil] at h
      cases h
    · rintro ⟨hbroken, hviolations⟩
      obtain ⟨violations⟩ := rejection
      obtain rfl : violations = _ := hviolations
      rw [validate, verdict, if_neg (mt List.isEmpty_iff.1 hbroken)]

/-- Of a short text that is not allowed both is reported, and of a missing number that it is required. -/
example :
    let specs : List Spec :=
      [{ name := "plan", kind := .string, minLength := some 2, allowed := [.text "basic"] },
        { name := "age", kind := .integer, required := true }]
    validate [("plan", .text "x"), ("age", .null)] specs =
      .error ⟨[⟨"plan", .minLength 2, none⟩, ⟨"plan", .allowed, none⟩, ⟨"age", .required, none⟩]⟩ := by
  rfl

end Rulebook.Parameter
