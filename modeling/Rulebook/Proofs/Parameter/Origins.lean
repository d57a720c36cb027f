import Rulebook.Proofs.Configuration.Sections
import Rulebook.Proofs.Json.Limits

/-!
# The numbers of a configuration text

Every source format has one machine format for small natural numbers: in a JSON text they arrive with
32 bits and a sign, in a YAML text with 64 bits and without. The values that a declaration allows are
parts of the value of the text, so their small natural numbers have the format of the source:
`Source.settled_allowed`.
-/

namespace Rulebook

/-- The formats in which an integer can arrive. -/
inductive IntegerFormat where
  | int32
  | int64
  | word64
  deriving DecidableEq

/-- A natural number in a format. -/
def IntegerFormat.number (n : Nat) : IntegerFormat → Number
  | int32 => .int32 (Int32.ofNat n)
  | int64 => .int64 (Int64.ofNat n)
  | word64 => .word64 (UInt64.ofNat n)

/-- The natural numbers that all formats hold. -/
def IsSmall (n : Nat) : Prop := n < 0x80000000

/-- Whether a number has the format if it is a small natural number. -/
def Number.Settles (format : IntegerFormat) (k : Number) : Prop :=
  ∀ n : Nat, IsSmall n → k.toInt? = some n → k = format.number n

theorem Number.settles_double (format : IntegerFormat) (x : Float) : Settles format (.double x) :=
  fun _ _ h => by cases h

namespace Value

mutual

/-- Whether all numbers in a value have a property. -/
def NumbersAre (p : Number → Prop) : Value → Prop
  | number n => p n
  | list items => ItemNumbersAre p items
  | record fields => FieldNumbersAre p fields
  | _ => True

/-- Whether all numbers in items have a property. -/
def ItemNumbersAre (p : Number → Prop) : List Value → Prop
  | [] => True
  | item :: rest => NumbersAre p item ∧ ItemNumbersAre p rest

/-- Whether all numbers in the values of fields have a property. -/
def FieldNumbersAre (p : Number → Prop) : List (String × Value) → Prop
  | [] => True
  | (_, value) :: rest => NumbersAre p value ∧ FieldNumbersAre p rest

end

variable {p : Number → Prop}

theorem itemNumbersAre_iff {items : List Value} :
    ItemNumbersAre p items ↔ ∀ item ∈ items, NumbersAre p item := by
  induction items with
  | nil => simp [ItemNumbersAre]
  | cons item rest ih => rw [ItemNumbersAre, ih, List.forall_mem_cons]

theorem fieldNumbersAre_iff {fields : List (String × Value)} :
    FieldNumbersAre p fields ↔ ∀ field ∈ fields, NumbersAre p field.2 := by
  induction fields with
  | nil => simp [FieldNumbersAre]
  | cons field rest ih =>
    obtain ⟨name, value⟩ := field
    rw [FieldNumbersAre, ih, List.forall_mem_cons]

theorem FieldNumbersAre.ofPairs {pairs : List (String × Value)} (h : FieldNumbersAre p pairs) :
    FieldNumbersAre p (Fields.ofPairs pairs) :=
  fieldNumbersAre_iff.2 fun field hfield =>
    fieldNumbersAre_iff.1 h field (Fields.mem_ofPairs hfield)

end Value

/-! ### JSON texts -/

namespace Verbatim

open Value

/-- An integer that fits 32 bits is read as one. -/
theorem settles_ofNumeral (numeral : Json.Numeral) : (ofNumeral numeral).Settles .int32 := by
  unfold ofNumeral
  dsimp only
  split
  · rename_i h
    intro n hn heq
    have hint : (Int32.ofInt numeral.toInt).toInt = numeral.toInt := by
      simp only [Bool.and_eq_true, decide_eq_true_eq] at h
      exact Int32.toInt_ofInt_of_le (by omega) (by omega)
    have hnat : numeral.toInt = n := by
      rw [← hint]
      exact Option.some.inj heq
    rw [hnat]
    rfl
  · exact Number.settles_double _ _

/-- What is read with some fuel has numbers with a property only. -/
structure ReadsNumbers (p : Number → Prop) (fuel : Nat) : Prop where
  value : ∀ {s after : List Char} {value : Value}, readValue fuel s = some (value, after) →
    value.NumbersAre p
  items : ∀ {s after : List Char} {items : List Value}, readItems fuel s = some (items, after) →
    ItemNumbersAre p items
  fields : ∀ {s after : List Char} {fields : List (String × Value)},
    readFields fuel s = some (fields, after) → FieldNumbersAre p fields

namespace ReadsNumbers

variable {p : Number → Prop} {fuel : Nat} {s after : List Char}

theorem value_succ (hp : ∀ numeral, p (ofNumeral numeral)) (h : ReadsNumbers p fuel) {value : Value}
    (hread : readValue (fuel + 1) s = some (value, after)) : value.NumbersAre p := by
  rw [readValue.eq_def] at hread
  dsimp only at hread
  split at hread
  · cases hread
    trivial
  · cases hread
    trivial
  · cases hread
    trivial
  · obtain ⟨⟨text, rest⟩, -, hread⟩ := Option.bind_eq_some_iff.1 hread
    cases hread
    trivial
  · split at hread
    · cases hread
      trivial
    · obtain ⟨⟨items, rest⟩, hitems, hread⟩ := Option.bind_eq_some_iff.1 hread
      cases hread
      exact h.items hitems
  · split at hread
    · split at hread
      · cases hread
        trivial
      · obtain ⟨⟨fields, rest⟩, hfields, hread⟩ := Option.bind_eq_some_iff.1 hread
        cases hread
        exact FieldNumbersAre.ofPairs (h.fields hfields)
    · obtain ⟨⟨numeral, rest⟩, -, hread⟩ := Option.bind_eq_some_iff.1 hread
      cases hread
      exact hp numeral

theorem items_succ (h : ReadsNumbers p fuel) {items : List Value}
    (hread : readItems (fuel + 1) s = some (items, after)) :
    ItemNumbersAre p items := by
  rw [readItems] at hread
  obtain ⟨⟨item, rest⟩, hitem, hread⟩ := Option.bind_eq_some_iff.1 hread
  dsimp only at hread
  split at hread
  · obtain ⟨⟨more, rest⟩, hmore, hread⟩ := Option.bind_eq_some_iff.1 hread
    cases hread
    exact ⟨h.value hitem, h.items hmore⟩
  · cases hread
    exact ⟨h.value hitem, trivial⟩
  · cases hread

theorem fields_succ (h : ReadsNumbers p fuel) {fields : List (String × Value)}
    (hread : readFields (fuel + 1) s = some (fields, after)) :
    FieldNumbersAre p fields := by
  rw [readFields.eq_def] at hread
  dsimp only at hread
  split at hread
  · obtain ⟨⟨name, rest⟩, -, hread⟩ := Option.bind_eq_some_iff.1 hread
    dsimp only at hread
    split at hread
    · obtain ⟨⟨value, rest⟩, hvalue, hread⟩ := Option.bind_eq_some_iff.1 hread
      dsimp only at hread
      split at hread
      · obtain ⟨⟨more, rest⟩, hmore, hread⟩ := Option.bind_eq_some_iff.1 hread
        cases hread
        exact ⟨h.value hvalue, h.fields hmore⟩
      · cases hread
        exact ⟨h.value hvalue, trivial⟩
      · cases hread
    · cases hread
  · cases hread

end ReadsNumbers

variable {p : Number → Prop}

theorem readsNumbers (hp : ∀ numeral, p (ofNumeral numeral)) (fuel : Nat) : ReadsNumbers p fuel := by
  induction fuel with
  | zero =>
    constructor <;>
    · intro s after found h
      cases h
  | succ fuel ih => exact ⟨ih.value_succ hp, ih.items_succ, ih.fields_succ⟩

/-- The numbers of a value that is read are numbers that numerals denote. -/
theorem numbersAre_of_read? (hp : ∀ numeral, p (ofNumeral numeral)) {text : String} {value : Value}
    (h : read? text = some value) : value.NumbersAre p := by
  obtain ⟨⟨found, rest⟩, hread, h⟩ := Option.bind_eq_some_iff.1 h
  obtain ⟨-, h⟩ := Option.ite_none_right_eq_some.1 h
  cases h
  exact (readsNumbers hp _).value hread

theorem settled_of_read? {text : String} {value : Value} (h : read? text = some value) :
    value.NumbersAre (Number.Settles .int32) :=
  numbersAre_of_read? settles_ofNumeral h

end Verbatim

/-! ### YAML texts -/

namespace Yaml

open Value

/-- An integer that is not negative and fits 64 bits is read as a word. -/
theorem settles_integerNumber (k : Int) : (integerNumber k).Settles .word64 := by
  intro n hn heq
  unfold IsSmall at hn
  unfold integerNumber at heq ⊢
  split at heq
  · rename_i h
    have hword : (UInt64.ofNat k.toNat).toNat = k.toNat :=
      UInt64.toNat_ofNat_of_lt (by show _ < 18446744073709551616; omega)
    have hnat : ((UInt64.ofNat k.toNat).toNat : Int) = n := Option.some.inj heq
    rw [hword] at hnat
    rw [if_pos h, Int.ofNat.inj hnat]
    rfl
  split at heq
  · have hint : (Int64.ofInt k).toInt = k := Int64.toInt_ofInt_of_le (by omega) (by omega)
    have hnat : (Int64.ofInt k).toInt = n := Option.some.inj heq
    omega
  · have hnat : k = n := Option.some.inj heq
    omega

theorem settled_toValue_scalar (meaning : Scalar) :
    meaning.toValue.NumbersAre (Number.Settles .word64) := by
  cases meaning with
  | integer n => exact settles_integerNumber n
  | real x => exact Number.settles_double _ x
  | _ => trivial

namespace Node

mutual

theorem settled_toValueAt : ∀ {depth : Nat} {node : Node} {value : Value},
    toValueAt depth node = some value → value.NumbersAre (Number.Settles .word64)
  | depth, scalar tag plain s, value, h => by
    rw [toValueAt] at h
    split at h
    · cases h
    · obtain ⟨meaning, -, rfl⟩ := Option.map_eq_some_iff.1 h
      exact settled_toValue_scalar meaning
  | depth, sequence tag items, value, h => by
    rw [toValueAt] at h
    split at h
    · cases h
    · obtain ⟨found, hfound, rfl⟩ := Option.map_eq_some_iff.1 h
      exact settled_toValuesAt hfound
  | depth, mapping tag pairs, value, h => by
    rw [toValueAt] at h
    split at h
    · cases h
    · obtain ⟨found, hfound, rfl⟩ := Option.map_eq_some_iff.1 h
      exact (settled_toFieldsAt hfound).ofPairs

theorem settled_toValuesAt : ∀ {depth : Nat} {nodes : List Node} {values : List Value},
    toValuesAt depth nodes = some values → ItemNumbersAre (Number.Settles .word64) values
  | _, [], values, h => by
    cases h
    trivial
  | depth, item :: rest, values, h => by
    obtain ⟨first, hfirst, h⟩ := Option.bind_eq_some_iff.1 h
    obtain ⟨others, hothers, h⟩ := Option.bind_eq_some_iff.1 h
    cases h
    exact ⟨settled_toValueAt hfirst, settled_toValuesAt hothers⟩

theorem settled_toFieldsAt : ∀ {depth : Nat} {pairs : List (Node × Node)}
    {fields : List (String × Value)}, toFieldsAt depth pairs = some fields →
      FieldNumbersAre (Number.Settles .word64) fields
  | _, [], fields, h => by
    cases h
    trivial
  | depth, (key, node) :: rest, fields, h => by
    rw [toFieldsAt.eq_def] at h
    dsimp only at h
    split at h
    · obtain ⟨name, -, h⟩ := Option.bind_eq_some_iff.1 h
      obtain ⟨first, hfirst, h⟩ := Option.bind_eq_some_iff.1 h
      obtain ⟨others, hothers, h⟩ := Option.bind_eq_some_iff.1 h
      cases h
      exact ⟨settled_toValueAt hfirst, settled_toFieldsAt hothers⟩
    · cases h

end

end Node
end Yaml

/-! ### Declarations -/

namespace Parameter.Spec

theorem readAllowed_eq_ok {found : Option Value} {allowed : List Value}
    (h : readAllowed found = .ok allowed) : found = some (.list allowed) ∨ allowed = [] := by
  match found, h with
  | none, h => exact .inr (Except.ok.inj h).symm
  | some (.list _), h => exact .inl (by rw [Except.ok.inj h])

/-- The allowed values of a declaration are parts of the value that describes it. -/
theorem allowed_numbersAre {p : Number → Prop} {value : Value} {spec : Spec}
    (hvalue : value.NumbersAre p) (h : ofValue value = .ok (.ok spec)) :
    ∀ item ∈ spec.allowed, item.NumbersAre p := by
  obtain ⟨fields, rfl, hparts⟩ := exists_of_ofValue h
  rcases readAllowed_eq_ok hparts.allowed with hmember | hnone
  · exact Value.itemNumbersAre_iff.1
      (Value.fieldNumbersAre_iff.1 hvalue _ (Fields.mem_of_get?_eq_some hmember))
  · rw [hnone]
    exact fun _ hitem => absurd hitem List.not_mem_nil

end Parameter.Spec

theorem Configuration.itemsOf_numbersAre {p : Number → Prop} {fields : Fields Value}
    {field : String} {items : List Value} (hfields : Value.FieldNumbersAre p fields)
    (h : itemsOf fields field = .ok items) : ∀ item ∈ items, item.NumbersAre p := by
  unfold itemsOf at h
  split at h
  · rename_i found hfound
    cases h
    exact Value.itemNumbersAre_iff.1
      (Value.fieldNumbersAre_iff.1 hfields _ (Fields.mem_of_get?_eq_some hfound))
  · cases h
    exact fun _ hitem => absurd hitem List.not_mem_nil
  · cases h
    exact fun _ hitem => absurd hitem List.not_mem_nil
  · cases h

/-- The values that a configuration text allows have all its small numbers in the format of the
source. -/
theorem Source.settled_allowed {source : Source} {format : IntegerFormat} {text : String}
    {configuration : Configuration}
    (hsource : ∀ value, source.value text = .ok value → value.NumbersAre (Number.Settles format))
    (h : source.configuration text = .ok (.ok configuration)) {spec : Parameter.Spec}
    (hspec : spec ∈ configuration.parameters) :
    ∀ item ∈ spec.allowed, item.NumbersAre (Number.Settles format) := by
  obtain ⟨fields, base, found, hvalue, hsections, -, rfl⟩ := exists_of_configuration h
  obtain ⟨items, hitems, hspecs⟩ := hsections.parameters
  obtain ⟨item, hitem, hread⟩ := exists_mem_of_forall₂ hspecs hspec
  exact Parameter.Spec.allowed_numbersAre
    (Configuration.itemsOf_numbersAre (hsource _ hvalue) hitems item hitem) hread

end Rulebook
