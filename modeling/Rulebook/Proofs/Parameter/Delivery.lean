import Mathlib
import Rulebook.Proofs.Decimal.Shortest
import Rulebook.Proofs.Engine.Payloads
import Rulebook.Proofs.Json.Reals
import Rulebook.Proofs.Parameter.Origins

/-!
# What passes validation is what the script gets

Texts of parameters are read as values, the values are checked, written as a JSON object and read by
the script. `parameters_delivered` follows a parameter all the way: the script finds the number that
was checked, unless it is not finite, which no limit refuses unless it is an infinity beyond it and
which is written as null.
-/

namespace Rulebook

open Script

namespace Fields

/-- Fields that are related one by one are related under every name. -/
theorem rel_get?_of_forall₂ {α β : Type} {R : String → α → β → Prop} {fields : Fields α}
    {values : Fields β}
    (h : List.Forall₂ (fun field value => value.1 = field.1 ∧ R field.1 field.2 value.2) fields values)
    (name : String) : Option.Rel (R name) (fields.get? name) (values.get? name) := by
  induction h with
  | nil => exact .none
  | @cons field value fields values hfirst _ ih =>
    obtain ⟨hname, hfirst⟩ := hfirst
    rw [get?, get?, hname]
    split
    · rename_i heq
      exact .some (heq ▸ hfirst)
    · exact ih

end Fields

namespace Value

mutual

/-- The finite doubles of every value are read back. -/
theorem doublesReadBack : ∀ value : Value, DoublesReadBack value
  | number (.double _) => fun hnumber hfinite => Json.readsBack hnumber hfinite
  | number (.int32 _) => trivial
  | number (.int64 _) => trivial
  | number (.word64 _) => trivial
  | number (.wide _) => trivial
  | null => trivial
  | undefined => trivial
  | bool _ => trivial
  | text _ => trivial
  | list items => itemsReadBack items
  | record fields => fieldsReadBack fields

theorem itemsReadBack : ∀ items : List Value, ItemsReadBack items
  | [] => trivial
  | item :: rest => ⟨doublesReadBack item, itemsReadBack rest⟩

theorem fieldsReadBack : ∀ fields : List (String × Value), FieldsReadBack fields
  | [] => trivial
  | (_, value) :: rest => ⟨doublesReadBack value, fieldsReadBack rest⟩

end

/-- Whether a number has a JSON form. -/
def HasForm (k : Number) : Prop := (numberJson k).isSome = true

mutual

/-- A value has a JSON form if its numbers have. -/
theorem exists_toJson : ∀ {value : Value}, value.NumbersAre HasForm → ∃ json, toJson value = some json
  | number _, h => Option.isSome_iff_exists.1 h
  | null, _ => ⟨_, rfl⟩
  | undefined, _ => ⟨_, rfl⟩
  | bool _, _ => ⟨_, rfl⟩
  | text _, _ => ⟨_, rfl⟩
  | list _, h => by
    obtain ⟨found, hfound⟩ := exists_toJsonItems h
    exact ⟨_, by rw [toJson, hfound]; rfl⟩
  | record _, h => by
    obtain ⟨found, hfound⟩ := exists_toJsonFields h
    exact ⟨_, by rw [toJson, hfound]; rfl⟩

theorem exists_toJsonItems : ∀ {items : List Value}, ItemNumbersAre HasForm items →
    ∃ found, toJsonItems items = some found
  | [], _ => ⟨_, rfl⟩
  | _ :: _, h => by
    obtain ⟨first, hfirst⟩ := exists_toJson h.1
    obtain ⟨others, hothers⟩ := exists_toJsonItems h.2
    exact ⟨first :: others, by rw [toJsonItems, hfirst, hothers]; rfl⟩

theorem exists_toJsonFields : ∀ {fields : List (String × Value)}, FieldNumbersAre HasForm fields →
    ∃ found, toJsonFields fields = some found
  | [], _ => ⟨_, rfl⟩
  | (name, _) :: _, h => by
    obtain ⟨first, hfirst⟩ := exists_toJson h.1
    obtain ⟨others, hothers⟩ := exists_toJsonFields h.2
    exact ⟨(name, first) :: others, by rw [toJsonFields, hfirst, hothers]; rfl⟩

end

theorem names_toJsonFields {fields : Fields Value} {found : Fields Json}
    (h : toJsonFields fields = some found) : found.names = fields.names := by
  induction fields generalizing found with
  | nil =>
    cases h
    rfl
  | cons field rest ih =>
    obtain ⟨first, -, h⟩ := Option.bind_eq_some_iff.1 h
    obtain ⟨others, hothers, h⟩ := Option.bind_eq_some_iff.1 h
    cases h
    exact congrArg (field.1 :: ·) (ih hothers)

theorem exists_get?_of_toJsonFields {fields : Fields Value} {found : Fields Json}
    (h : toJsonFields fields = some found) {name : String} {value : Value}
    (hvalue : fields.get? name = some value) :
    ∃ json, toJson value = some json ∧ found.get? name = some json := by
  induction fields generalizing found with
  | nil => cases hvalue
  | cons field rest ih =>
    obtain ⟨first, hfirst, h⟩ := Option.bind_eq_some_iff.1 h
    obtain ⟨others, hothers, h⟩ := Option.bind_eq_some_iff.1 h
    cases h
    rw [Fields.get?] at hvalue ⊢
    split at hvalue
    · cases hvalue
      exact ⟨first, hfirst, if_pos ‹_›⟩
    · obtain ⟨json, hjson, hget⟩ := ih hothers hvalue
      exact ⟨json, hjson, by rw [if_neg ‹_›, hget]⟩

/-- Only what is missing and doubles that are not finite have the form null. -/
theorem toJson_eq_null_iff {value : Value} : toJson value = some .null ↔
    value.isMissing = true ∨ ∃ x, value = number (.double x) ∧ x.isFinite = false := by
  cases value with
  | number k =>
    cases k with
    | double x =>
      rw [toJson, numberJson]
      cases hform : x.isNaN || x.isInf with
      | false =>
        refine iff_of_false (by simp) ?_
        rintro (hmissing | ⟨y, hy, hfinite⟩)
        · cases hmissing
        · cases hy
          rw [Double.isFinite_eq, hform] at hfinite
          cases hfinite
      | true => exact iff_of_true rfl (.inr ⟨x, rfl, by rw [Double.isFinite_eq, hform]; rfl⟩)
    | _ => simp [toJson, numberJson, isMissing]
  | _ => simp [toJson, isMissing]

end Value

namespace Json

theorem names_settledMembers (members : List (String × Json)) :
    Fields.names (settledMembers members) = Fields.names members := by
  induction members with
  | nil => rfl
  | cons member rest ih => exact congrArg (member.1 :: ·) ih

theorem get?_settledMembers (members : List (String × Json)) (name : String) :
    Fields.get? (settledMembers members) name = (Fields.get? members name).map settled := by
  induction members with
  | nil => rfl
  | cons member rest ih =>
    rw [settledMembers, Fields.get?, Fields.get?]
    split
    · rfl
    · exact ih

end Json

/-- In a script only null becomes the unit. -/
theorem Script.Datum.ofJson_settled_eq_unit_iff {json : Json} :
    Datum.ofJson json.settled = .unit ↔ json = .null := by
  cases json with
  | integer n =>
    show (if _ then Datum.int _ else Datum.float _) = _ ↔ _
    split <;> simp
  | _ => simp [Json.settled, Datum.ofJson]

/-- The script finds under each name what the value under the name is written as. -/
theorem Value.exists_map_of_toJson {fields : Fields Value} {json : Json}
    (h : (record fields).toJson = some json) (hnames : fields.names.Nodup) :
    ∃ members, Datum.ofJson json.settled = .map members ∧ ∀ name value,
      fields.get? name = some value → ∃ found, value.toJson = some found ∧
        Fields.get? members name = some (Datum.ofJson found.settled) := by
  obtain ⟨found, hfound, rfl⟩ := Option.map_eq_some_iff.1 h
  have hsettled : Fields.ofPairs (Json.settledMembers found) = Json.settledMembers found := by
    refine Fields.ofPairs_of_nodup ?_
    rw [Json.names_settledMembers, names_toJsonFields hfound]
    exact hnames
  refine ⟨Datum.ofJsonMembers (Json.settledMembers found), ?_, fun name value hvalue => ?_⟩
  · rw [Json.settled, hsettled, Datum.ofJson]
  · obtain ⟨json, hjson, hget⟩ := exists_get?_of_toJsonFields hfound hvalue
    refine ⟨json, hjson, ?_⟩
    rw [(get?_ofJsonMembers _ name).2, Json.get?_settledMembers, hget]
    rfl

/-! ### Limits -/

namespace Parameter

/-- Whether a number keeps the limits of a declaration. A limit that is not a number is no limit. -/
structure Spec.Keeps (spec : Spec) (q : Extended) : Prop where
  min_le : ∀ min p, spec.min = some min → Double.value min = some p → p ≤ q
  le_max : ∀ max p, spec.max = some max → Double.value max = some p → q ≤ p

/-- What is not a number breaks no limits, a number breaks none if it keeps them. -/
theorem Spec.rangeViolations_eq_nil_iff {spec : Spec} {k : Number} :
    spec.rangeViolations (.number k) = [] ↔ ∀ q, Double.value k.toFloat = some q → spec.Keeps q := by
  rw [rangeViolations, List.append_eq_nil_iff]
  constructor
  · rintro ⟨hmin, hmax⟩ q hq
    refine ⟨fun min p hm hp => ?_, fun max p hm hp => ?_⟩
    · rw [hm] at hmin
      have hnot : ¬ k.toFloat < min := fun hlt => by simp [hlt] at hmin
      exact Double.not_lt_iff.1 hnot q p hq hp
    · rw [hm] at hmax
      have hnot : ¬ max < k.toFloat := fun hlt => by simp [hlt] at hmax
      exact Double.not_lt_iff.1 hnot p q hp hq
  · intro h
    constructor
    · cases hm : spec.min with
      | none => rfl
      | some min =>
        exact if_neg (Double.not_lt_iff.2 fun q p hq hp => (h q hq).min_le min p hm hp)
    · cases hm : spec.max with
      | none => rfl
      | some max =>
        exact if_neg (Double.not_lt_iff.2 fun p q hp hq => (h q hq).le_max max p hm hp)

/-! ### Reading and checking -/

theorem hasForm_ofNumeral (numeral : Json.Numeral) : Value.HasForm (Verbatim.ofNumeral numeral) := by
  unfold Verbatim.ofNumeral
  dsimp only
  split <;> rfl

/-- What the text of a parameter can be read as. -/
theorem Kind.coerce_cases {kind : Kind} {raw : String} {value : Value}
    (h : kind.coerce raw = some value) :
    (kind = .number ∧ ∃ x, Decimal.readFloat? (Text.trim raw.toList) = some x ∧
      value = .number (.double x)) ∨
    (kind = .integer ∧ ∃ n, Decimal.readInt64? (Text.trim raw.toList) = some n ∧
      value = .number (.int64 n)) ∨
    (kind ≠ .number ∧ kind ≠ .integer ∧ (∀ k, value ≠ .number k) ∧ value.isMissing = false ∧
      value.NumbersAre Value.HasForm) := by
  cases kind with
  | number =>
    obtain ⟨x, hx, rfl⟩ := Option.map_eq_some_iff.1 h
    exact .inl ⟨rfl, x, hx, rfl⟩
  | integer =>
    obtain ⟨n, hn, rfl⟩ := Option.map_eq_some_iff.1 h
    exact .inr (.inl ⟨rfl, n, hn, rfl⟩)
  | string =>
    cases h
    exact .inr (.inr ⟨nofun, nofun, nofun, rfl, trivial⟩)
  | any =>
    cases h
    exact .inr (.inr ⟨nofun, nofun, nofun, rfl, trivial⟩)
  | boolean =>
    rw [coerce] at h
    split at h
    · cases h
      exact .inr (.inr ⟨nofun, nofun, nofun, rfl, trivial⟩)
    · split at h
      · cases h
        exact .inr (.inr ⟨nofun, nofun, nofun, rfl, trivial⟩)
      · cases h
  | object =>
    obtain ⟨hread, hkind⟩ := Option.filter_eq_some_iff.1 h
    have hform := Verbatim.numbersAre_of_read? hasForm_ofNumeral hread
    cases value with
    | record fields => exact .inr (.inr ⟨nofun, nofun, nofun, rfl, hform⟩)
    | _ => cases hkind
  | array =>
    obtain ⟨hread, hkind⟩ := Option.filter_eq_some_iff.1 h
    have hform := Verbatim.numbersAre_of_read? hasForm_ofNumeral hread
    cases value with
    | list items => exact .inr (.inr ⟨nofun, nofun, nofun, rfl, hform⟩)
    | _ => cases hkind

variable {parameters : Fields String} {specs : List Spec} {values : Fields Value}

theorem hasForm_of_coerceOne {name raw : String} {value : Value}
    (h : coerceOne specs name raw = .ok value) : value.NumbersAre Value.HasForm := by
  rw [coerceOne] at h
  split at h
  · split at h
    · rename_i found hfound
      cases h
      rcases Kind.coerce_cases hfound with ⟨-, x, -, rfl⟩ | ⟨-, n, -, rfl⟩ | ⟨-, -, -, -, hform⟩
      · exact rfl
      · exact rfl
      · exact hform
    · cases h
  · cases h
    trivial

theorem inDeclarationOrder_nil (specs : List Spec) : inDeclarationOrder specs [] = [] :=
  List.mergeSort_nil

theorem eq_nil_of_inDeclarationOrder {violations : List Violation}
    (h : inDeclarationOrder specs violations = []) : violations = [] := by
  have hperm := List.mergeSort_perm violations fun a b =>
    decide (declaredAt specs a.parameter ≤ declaredAt specs b.parameter)
  rw [inDeclarationOrder] at h
  rw [h] at hperm
  exact hperm.symm.eq_nil

theorem exists_coerceOne_of_coerceAll (h : (coerceAll parameters specs).2 = []) :
    ∀ field ∈ parameters, ∃ value, coerceOne specs field.1 field.2 = .ok value := by
  intro field hfield
  have hnone := List.filterMap_eq_nil_iff.1 (eq_nil_of_inDeclarationOrder h) field hfield
  dsimp only at hnone
  split at hnone
  · exact ⟨_, ‹_›⟩
  · cases hnone

theorem forall₂_coerceAll
    (h : ∀ field ∈ parameters, ∃ value, coerceOne specs field.1 field.2 = .ok value) :
    List.Forall₂ (fun field value => value.1 = field.1 ∧
      coerceOne specs field.1 field.2 = .ok value.2) parameters (coerceAll parameters specs).1 := by
  induction parameters with
  | nil => exact .nil
  | cons field rest ih =>
    obtain ⟨value, hvalue⟩ := h field (.head _)
    have hcons : (coerceAll (field :: rest) specs).1 =
        (field.1, value) :: (coerceAll rest specs).1 := by
      rw [coerceAll, coerceAll]
      simp only [List.filterMap_cons, hvalue]
      rfl
    rw [hcons]
    exact .cons ⟨rfl, hvalue⟩ (ih fun field hfield => h field (.tail _ hfield))

theorem verdict_eq_ok {α : Type} {violations : List Violation} {a b : α}
    (h : verdict violations a = .ok b) : violations = [] ∧ a = b := by
  rw [verdict] at h
  split at h
  · exact ⟨List.isEmpty_iff.1 ‹_›, Except.ok.inj h⟩
  · cases h

theorem find?_name_of_nodup {spec : Spec} (hnames : (specs.map (·.name)).Nodup)
    (hspec : spec ∈ specs) :
    specs.find? (·.name == spec.name) = some spec := by
  induction specs with
  | nil => cases hspec
  | cons first rest ih =>
    rw [List.map_cons, List.nodup_cons] at hnames
    rcases List.mem_cons.1 hspec with rfl | hspec
    · exact List.find?_cons_of_pos (beq_self_eq_true _)
    · rw [List.find?_cons_of_neg, ih hnames.2 hspec]
      rw [beq_iff_eq]
      exact fun heq => hnames.1 (heq ▸ List.mem_map_of_mem hspec)

/-- A declared parameter is read as a value of its kind. -/
theorem coerce_of_coerceOne {spec : Spec} (hnames : (specs.map (·.name)).Nodup) (hspec : spec ∈ specs)
    {raw : String} {value : Value} (h : coerceOne specs spec.name raw = .ok value) :
    spec.kind.coerce raw = some value := by
  rw [coerceOne, find?_name_of_nodup hnames hspec] at h
  dsimp only at h
  split at h
  · cases h
    assumption
  · cases h

theorem rangeViolations_of_violations {spec : Spec} {k : Number}
    (h : spec.violations (some (.number k)) = []) : spec.rangeViolations (.number k) = [] := by
  change (if _ then _ else _) = [] at h
  split at h
  · simp only [List.append_eq_nil_iff] at h
    exact h.1.1.1
  · cases h

/-- What it means that texts of parameters are accepted. -/
structure Accepted (specs : List Spec) (parameters : Fields String) (values : Fields Value) : Prop where
  /-- Every text is read as a value. -/
  read : List.Forall₂ (fun field value => value.1 = field.1 ∧
    coerceOne specs field.1 field.2 = .ok value.2) parameters values
  /-- No value breaks a constraint. -/
  kept : ∀ spec ∈ specs, spec.violations (values.get? spec.name) = []

theorem accepted_of_validateStrings (h : validateStrings parameters specs = .ok values) :
    Accepted specs parameters values := by
  obtain ⟨hnil, rfl⟩ := verdict_eq_ok h
  obtain ⟨hunread, hbroken⟩ := List.append_eq_nil_iff.1 (eq_nil_of_inDeclarationOrder hnil)
  refine ⟨forall₂_coerceAll (exists_coerceOne_of_coerceAll hunread), fun spec hspec => ?_⟩
  have hkept := List.flatMap_eq_nil_iff.1 hbroken spec hspec
  rwa [hunread] at hkept

namespace Accepted

variable (h : Accepted specs parameters values)

include h

theorem names_eq : values.names = parameters.names := by
  have hread := h.read
  clear h
  induction hread with
  | nil => rfl
  | cons hfirst _ ih => exact congrArg₂ List.cons hfirst.1 ih

/-- What is read under each name. -/
theorem rel_get? (name : String) : Option.Rel (fun raw value => coerceOne specs name raw = .ok value)
    (parameters.get? name) (values.get? name) :=
  @Fields.rel_get?_of_forall₂ String Value (fun name raw value => coerceOne specs name raw = .ok value)
    parameters values h.read name

theorem exists_toJson : ∃ json, (Value.record values).toJson = some json := by
  refine Value.exists_toJson (Value.fieldNumbersAre_iff.2 fun field hfield => ?_)
  obtain ⟨supplied, -, -, hcoerce⟩ := exists_mem_of_forall₂ h.read hfield
  exact hasForm_of_coerceOne hcoerce

variable {spec : Spec}

/-- A required parameter was supplied. -/
theorem exists_raw (hspec : spec ∈ specs) (hrequired : spec.required = true) :
    ∃ raw, parameters.get? spec.name = some raw := by
  have hkept := h.kept spec hspec
  have hrel := h.rel_get? spec.name
  generalize parameters.get? spec.name = raw at hrel ⊢
  generalize values.get? spec.name = value at hkept hrel
  cases hrel with
  | some _ => exact ⟨_, rfl⟩
  | none =>
    rw [Spec.violations, Option.filter_none] at hkept
    dsimp only at hkept
    rw [if_pos hrequired] at hkept
    cases hkept

/-- A declared parameter that was supplied is read as a value of its kind and keeps its limits. -/
theorem exists_value (hnames : (specs.map (·.name)).Nodup) (hspec : spec ∈ specs) {raw : String}
    (hraw : parameters.get? spec.name = some raw) : ∃ value,
      values.get? spec.name = some value ∧ spec.kind.coerce raw = some value ∧
        (∀ k, value = .number k → spec.rangeViolations (.number k) = []) := by
  have hkept := h.kept spec hspec
  have hrel := h.rel_get? spec.name
  rw [hraw] at hrel
  generalize hvalue : values.get? spec.name = value at hkept hrel
  obtain ⟨hread⟩ := hrel
  rename_i value
  have hcoerce := coerce_of_coerceOne hnames hspec hread
  refine ⟨value, rfl, hcoerce, fun k hk => ?_⟩
  subst hk
  exact rangeViolations_of_violations hkept

end Accepted

/-- What a script finds under the name of a declared parameter whose text is `raw`. -/
structure Spec.Delivers (spec : Spec) (raw : String) (datum : Datum) : Prop where
  /-- Nothing but a number that is not finite is lost. -/
  unit_iff : datum = .unit ↔ spec.kind = .number ∧ ∃ x,
    Decimal.readFloat? (Text.trim raw.toList) = some x ∧ x.isFinite = false
  /-- An integer arrives, and the double nearest to it keeps the limits. -/
  integer : spec.kind = .integer → ∃ n, Decimal.readInt64? (Text.trim raw.toList) = some n ∧
    datum = .int n ∧ ∃ q, Double.value (Decimal.ofInt n.toInt) = some (.ofRat q) ∧
      spec.Keeps (.ofRat q) ∧ (n.toInt.natAbs ≤ 0x20000000000000 → q = n.toInt)
  /-- A finite number arrives and keeps the limits. -/
  number : spec.kind = .number → ∃ x, Decimal.readFloat? (Text.trim raw.toList) = some x ∧
    (x.isFinite = true → datum = .float x ∧ ∃ q, Double.value x = some (.ofRat q) ∧
      spec.Keeps (.ofRat q))

/-- What becomes the unit in a script: what is missing, and doubles that are not finite. -/
theorem datum_eq_unit_iff {value : Value} {json : Json} (hjson : value.toJson = some json) :
    Datum.ofJson json.settled = .unit ↔
      value.isMissing = true ∨ ∃ x, value = .number (.double x) ∧ x.isFinite = false := by
  rw [Datum.ofJson_settled_eq_unit_iff, ← Value.toJson_eq_null_iff, hjson, Option.some.injEq]

/-- A finite double arrives as it is. -/
theorem datum_of_double {x : Float} {json : Json}
    (hjson : (Value.number (.double x)).toJson = some json) (hfinite : x.isFinite = true) :
    Datum.ofJson json.settled = .float x := by
  have hform : (x.isNaN || x.isInf) = false := by
    rwa [Double.isFinite_eq, Bool.not_eq_true'] at hfinite
  rw [Value.toJson, Value.numberJson, hform] at hjson
  cases hjson
  rfl

/-- An integer of 64 bits arrives as it is. -/
theorem datum_of_int64 {n : Int64} {json : Json}
    (hjson : (Value.number (.int64 n)).toJson = some json) :
    Datum.ofJson json.settled = .int n := by
  cases hjson
  have hlow := n.le_toInt
  have hhigh := n.toInt_lt
  show (if _ then Datum.int (Int64.ofInt n.toInt) else _) = _
  rw [if_pos (by omega), Int64.ofInt_toInt]

/-- The double nearest to an integer of 64 bits is a number, and the integer itself up to 53 bits. -/
theorem exists_value_of_int64 (n : Int64) : ∃ q, Double.value (Decimal.ofInt n.toInt) =
    some (.ofRat q) ∧ (n.toInt.natAbs ≤ 0x20000000000000 → q = n.toInt) := by
  by_cases h : n.toInt.natAbs ≤ 0x20000000000000
  · exact ⟨_, Decimal.value_ofInt h, fun _ => rfl⟩
  · have hlow := n.le_toInt
    have hhigh := n.toInt_lt
    have hlog : n.toInt.natAbs.log2 < 1023 := by
      have hlt : n.toInt.natAbs.log2 < 64 := (Nat.log2_lt (by omega)).2 (by omega)
      omega
    obtain ⟨q, hq⟩ := Decimal.exists_value_ofInt hlog
    exact ⟨q, hq, fun hle => absurd hle h⟩

theorem Spec.delivers_of_coerce {spec : Spec} {raw : String} {value : Value} {json : Json}
    (hcoerce : spec.kind.coerce raw = some value) (hjson : value.toJson = some json)
    (hrange : ∀ k, value = .number k → spec.rangeViolations (.number k) = []) :
    spec.Delivers raw (Datum.ofJson json.settled) := by
  have hunit := datum_eq_unit_iff hjson
  -- a double, which may be infinite, a word, or something that is no number
  rcases Kind.coerce_cases hcoerce with ⟨hkind, x, hread, rfl⟩ | ⟨hkind, n, hread, rfl⟩ |
    ⟨hnumber, hinteger, hvalue, hmissing, -⟩
  · have hkeeps := Spec.rangeViolations_eq_nil_iff.1 (hrange _ rfl)
    refine ⟨hunit.trans ⟨?_, ?_⟩, fun h => absurd (hkind.symm.trans h) nofun,
      fun _ => ⟨x, hread, fun hfinite => ?_⟩⟩
    · rintro (hmissing | ⟨y, hy, hfinite⟩)
      · cases hmissing
      · cases hy
        exact ⟨hkind, x, hread, hfinite⟩
    · rintro ⟨-, y, hy, hfinite⟩
      cases hread.symm.trans hy
      exact .inr ⟨x, rfl, hfinite⟩
    · obtain ⟨q, hq⟩ := Double.exists_value_of_isFinite hfinite
      exact ⟨datum_of_double hjson hfinite, q, hq, hkeeps _ hq⟩
  · have hkeeps := Spec.rangeViolations_eq_nil_iff.1 (hrange _ rfl)
    obtain ⟨q, hq, hexact⟩ := exists_value_of_int64 n
    refine ⟨hunit.trans ⟨?_, fun h => absurd (hkind.symm.trans h.1) nofun⟩,
      fun _ => ⟨n, hread, datum_of_int64 hjson, q, hq, hkeeps _ hq, hexact⟩,
      fun h => absurd (hkind.symm.trans h) nofun⟩
    rintro (hmissing | ⟨y, hy, -⟩)
    · cases hmissing
    · cases hy
  · refine ⟨hunit.trans ⟨?_, fun h => absurd h.1 hnumber⟩, fun h => absurd h hinteger,
      fun h => absurd h hnumber⟩
    rintro (hlost | ⟨x, hx, -⟩)
    · rw [hmissing] at hlost
      cases hlost
    · exact absurd hx (hvalue _)

end Parameter
end Rulebook
