import Mathlib
import Rulebook.Proofs.Json.Readings
import Rulebook.Proofs.Parameter.Delivery
import Rulebook.Proofs.Value.Verbatim

/-!
# The two values of a JSON text

A text has the value that JSON gives it, and the value without escapes, in which integers have 32 bits
and all other numbers are doubles. Both are readings of the structure of the text, and they stay readings
when members are rearranged or a script takes them in. So it can be seen from the structure when they are
the same: `same_sorted_iff` and `same_toJson_iff`.
-/

namespace Rulebook

namespace Fields

variable {α : Type}

theorem nodup_names_put {fields : Fields α} (h : fields.names.Nodup) (name : String) (value : α) :
    (fields.put name value).names.Nodup := by
  induction fields with
  | nil => exact List.nodup_singleton name
  | cons field rest ih =>
    obtain ⟨k, v⟩ := field
    obtain ⟨hfirst, hrest⟩ := List.nodup_cons.1 h
    rw [put]
    split
    · exact h
    · rename_i hne
      refine List.nodup_cons.2 ⟨fun hmem => ?_, ih hrest⟩
      obtain ⟨field, hfield, hname⟩ := List.mem_map.1 hmem
      rcases mem_put hfield with rfl | hfield
      · exact hne hname.symm
      · exact hfirst (hname ▸ List.mem_map_of_mem hfield)

/-- Pairs are made into fields of which no two have the same name. -/
theorem nodup_names_ofPairs (pairs : List (String × α)) : (ofPairs pairs).names.Nodup := by
  induction pairs using List.reverseRecOn with
  | nil => exact List.nodup_nil
  | append_singleton pairs pair ih =>
    rw [ofPairs, List.foldl_append]
    exact nodup_names_put ih pair.1 pair.2

end Fields

namespace Json

open Written

namespace Written

variable {tree : Written} {members : List Member} {json : Json}

/-! ### The values of a structure are readings -/

theorem forall₂_standardItems {items : List Written} {found : List Json}
    (h : standardItems items = some found) :
    List.Forall₂ (fun item json => item.standard = some json) items found := by
  induction items generalizing found with
  | nil =>
    cases h
    exact .nil
  | cons item rest ih =>
    obtain ⟨first, hfirst, h⟩ := Option.bind_eq_some_iff.1 h
    obtain ⟨others, hothers, h⟩ := Option.bind_eq_some_iff.1 h
    cases h
    exact .cons hfirst (ih hothers)

theorem forall₂_standardMembers {pairs : List (String × Json)}
    (h : standardMembers members = some pairs) : List.Forall₂ (fun member pair =>
      decode member.1.chars = some pair.1.toList ∧ member.2.2.standard = some pair.2) members pairs := by
  induction members generalizing pairs with
  | nil =>
    cases h
    exact .nil
  | cons member rest ih =>
    obtain ⟨name, hname, h⟩ := Option.bind_eq_some_iff.1 h
    obtain ⟨first, hfirst, h⟩ := Option.bind_eq_some_iff.1 h
    obtain ⟨others, hothers, h⟩ := Option.bind_eq_some_iff.1 h
    cases h
    exact .cons ⟨by rw [String.toList_ofList]; exact hname, hfirst⟩ (ih hothers)

/-- The last of several members with one name counts in the structure as in the value. -/
theorem rel_member?_standard {pairs : List (String × Json)}
    (h : standardMembers members = some pairs) (name : String) :
    Option.Rel (fun tree json => tree.standard = some json)
      ((Written.object members).member? decode name) ((Fields.ofPairs pairs).get? name) := by
  rw [Fields.get?_ofPairs, member?]
  have hpairs := List.rel_reverse (forall₂_standardMembers h)
  generalize pairs.reverse = pairs at hpairs ⊢
  show Option.Rel _ ((members.reverse.find? _).map _) _
  generalize members.reverse = members at hpairs ⊢
  induction hpairs with
  | nil => exact .none
  | @cons member pair _ _ hfirst _ ih =>
    rw [List.find?_cons, List.find?_cons, Member.isNamed, hfirst.1]
    by_cases hname : pair.1 = name
    · rw [hname, beq_self_eq_true, beq_self_eq_true]
      exact .some hfirst.2
    · have hother : (some pair.1.toList == some name.toList) = false := by
        rw [beq_eq_false_iff_ne]
        exact fun heq => hname (String.toList_inj.1 (Option.some.inj heq))
      rw [hother, beq_eq_false_iff_ne.2 hname]
      exact ih

/-- The value that a structure stands for is a reading with escapes. -/
theorem reads_of_standard (h : tree.standard = some json) :
    Reads decode (fun n json => ofNumeral n = some json) tree json := by
  induction tree using induct generalizing json with
  | null =>
    cases h
    exact .null
  | bool b =>
    cases h
    exact .bool b
  | numeral n => exact .numeral h
  | string inside =>
    obtain ⟨decoded, hdecode, rfl⟩ := Option.map_eq_some_iff.1 h
    exact .string hdecode
  | array items ih =>
    obtain ⟨found, hfound, rfl⟩ := Option.map_eq_some_iff.1 h
    exact .of_forall₂ (forall₂_standardItems hfound) ih
  | object members ih =>
    obtain ⟨pairs, hpairs, rfl⟩ := Option.map_eq_some_iff.1 h
    refine .of_rel fun name => ?_
    have hrel := rel_member?_standard hpairs name
    generalize htree : (Written.object members).member? decode name = found at hrel ⊢
    generalize (Fields.ofPairs pairs).get? name = json at hrel ⊢
    cases hrel with
    | none => exact .none
    | some hstandard =>
      obtain ⟨member, hmember, rfl⟩ := exists_member_of_member? htree
      exact .some (ih member hmember hstandard)

theorem forall₂_toJsonItems {items : List Value} {found : List Json}
    (h : Value.toJsonItems items = some found) :
    List.Forall₂ (fun item json => item.toJson = some json) items found := by
  induction items generalizing found with
  | nil =>
    cases h
    exact .nil
  | cons item rest ih =>
    obtain ⟨first, hfirst, h⟩ := Option.bind_eq_some_iff.1 h
    obtain ⟨others, hothers, h⟩ := Option.bind_eq_some_iff.1 h
    cases h
    exact .cons hfirst (ih hothers)

theorem forall₂_toJsonFields {fields : Fields Value} {found : Fields Json}
    (h : Value.toJsonFields fields = some found) : List.Forall₂ (fun field pair =>
      pair.1 = field.1 ∧ field.2.toJson = some pair.2) fields found := by
  induction fields generalizing found with
  | nil =>
    cases h
    exact .nil
  | cons field rest ih =>
    obtain ⟨first, hfirst, h⟩ := Option.bind_eq_some_iff.1 h
    obtain ⟨others, hothers, h⟩ := Option.bind_eq_some_iff.1 h
    cases h
    exact .cons ⟨rfl, hfirst⟩ (ih hothers)

/-- The JSON form of the value without escapes is a reading without them. -/
theorem reads_of_toJson (h : tree.verbatim.toJson = some json) :
    Reads some (fun n json => Value.numberJson (Verbatim.ofNumeral n) = some json) tree json := by
  induction tree using induct generalizing json with
  | null =>
    cases h
    exact .null
  | bool b =>
    cases h
    exact .bool b
  | numeral n => exact .numeral h
  | string inside =>
    cases h
    exact .string rfl
  | array items ih =>
    obtain ⟨found, hfound, rfl⟩ := Option.map_eq_some_iff.1 h
    rw [verbatimItems_eq_map] at hfound
    exact .of_forall₂ (List.forall₂_map_left_iff.1 (forall₂_toJsonItems hfound)) ih
  | object members ih =>
    obtain ⟨found, hfound, rfl⟩ := Option.map_eq_some_iff.1 h
    refine .of_rel fun name => ?_
    have hrel := @Fields.rel_get?_of_forall₂ Value Json (fun _ value json => value.toJson = some json)
      _ _ (forall₂_toJsonFields hfound) name
    rw [get?_verbatim] at hrel
    generalize htree : (Written.object members).member? some name = tree at hrel ⊢
    generalize Fields.get? found name = json at hrel ⊢
    cases tree with
    | none =>
      cases hrel
      exact .none
    | some tree =>
      obtain ⟨member, hmember, rfl⟩ := exists_member_of_member? htree
      cases hrel with
      | some hjson => exact .some (ih member hmember hjson)

/-- Every value without escapes has a JSON form. -/
theorem exists_toJson_verbatim {text : String} (h : Denotes text tree) :
    ∃ form, tree.verbatim.toJson = some form :=
  Value.exists_toJson (Verbatim.numbersAre_of_read? Parameter.hasForm_ofNumeral
    (Verbatim.read?_of_denotes h))

theorem settledItems_eq_self {items : List Json} (h : ∀ item ∈ items, item.settled = item) :
    settledItems items = items := by
  induction items with
  | nil => rfl
  | cons item rest ih =>
    obtain ⟨hfirst, hrest⟩ := List.forall_mem_cons.1 h
    rw [settledItems, hfirst, ih hrest]

theorem settledMembers_eq_self {members : Fields Json}
    (h : ∀ member ∈ members, member.2.settled = member.2) : settledMembers members = members := by
  induction members with
  | nil => rfl
  | cons member rest ih =>
    obtain ⟨hfirst, hrest⟩ := List.forall_mem_cons.1 h
    rw [settledMembers, hfirst, ih hrest]

theorem depthItems_le_iff {items : List Json} {limit : Nat} :
    depthItems items ≤ limit ↔ ∀ item ∈ items, item.depth ≤ limit := by
  induction items with
  | nil => simp [depthItems]
  | cons item rest ih => rw [depthItems, Nat.max_le, ih, List.forall_mem_cons]

theorem nesting_le_of_mem_items {items : List Written} (h : tree ∈ items) :
    tree.nesting ≤ nestingItems items := by
  induction h with
  | head => exact Nat.le_max_left _ _
  | tail _ _ ih => exact ih.trans (Nat.le_max_right _ _)

theorem nesting_le_of_mem_members {member : Member} (h : member ∈ members) :
    member.2.2.nesting ≤ nestingMembers members := by
  induction h with
  | head => exact Nat.le_max_left _ _
  | tail _ _ ih => exact ih.trans (Nat.le_max_right _ _)

/-- Reading the JSON form of the value without escapes again changes nothing, and it is nested no deeper
than the structure. -/
theorem settled_of_toJson (h : tree.verbatim.toJson = some json) :
    json.settled = json ∧ json.depth ≤ tree.nesting := by
  induction tree using induct generalizing json with
  | numeral n =>
    change Value.numberJson (Verbatim.ofNumeral n) = some json at h
    cases hnumber : Verbatim.ofNumeral n with
    | double x =>
      rw [hnumber] at h
      cases h
      split <;> exact ⟨rfl, Nat.zero_le _⟩
    | _ =>
      rw [hnumber] at h
      cases h <;> exact ⟨rfl, Nat.zero_le _⟩
  | array items ih =>
    obtain ⟨found, hfound, rfl⟩ := Option.map_eq_some_iff.1 h
    rw [verbatimItems_eq_map] at hfound
    have hitems := List.forall₂_map_left_iff.1 (forall₂_toJsonItems hfound)
    have hread : ∀ json ∈ found, json.settled = json ∧ json.depth ≤ nestingItems items := by
      intro json hjson
      obtain ⟨item, hitem, hform⟩ := exists_mem_of_forall₂ hitems hjson
      obtain ⟨hsettled, hdepth⟩ := ih item hitem hform
      exact ⟨hsettled, hdepth.trans (nesting_le_of_mem_items hitem)⟩
    exact ⟨congrArg Json.array (settledItems_eq_self fun json hjson => (hread json hjson).1),
      Nat.succ_le_succ (depthItems_le_iff.2 fun json hjson => (hread json hjson).2)⟩
  | object members ih =>
    obtain ⟨found, hfound, rfl⟩ := Option.map_eq_some_iff.1 h
    have hfields := forall₂_toJsonFields hfound
    have hread : ∀ pair ∈ found, pair.2.settled = pair.2 ∧ pair.2.depth ≤ nestingMembers members := by
      intro pair hpair
      obtain ⟨field, hfield, -, hform⟩ := exists_mem_of_forall₂ hfields hpair
      have hmem := Fields.mem_ofPairs hfield
      rw [verbatimMembers_eq_map] at hmem
      obtain ⟨member, hmember, rfl⟩ := List.mem_map.1 hmem
      obtain ⟨hsettled, hdepth⟩ := ih member hmember hform
      exact ⟨hsettled, hdepth.trans (nesting_le_of_mem_members hmember)⟩
    -- Of several members with one name the value has one, so its form can be read back.
    have hnames : (Fields.names found).Nodup := by
      rw [Value.names_toJsonFields hfound]
      exact Fields.nodup_names_ofPairs _
    refine ⟨?_, Nat.succ_le_succ (depthMembers_le_iff.2 fun pair hpair => (hread pair hpair).2)⟩
    rw [settled, settledMembers_eq_self fun pair hpair => (hread pair hpair).1,
      Fields.ofPairs_of_nodup hnames]
  | _ =>
    cases h
    exact ⟨rfl, Nat.zero_le _⟩

end Written

/-! ### Rearranged values -/

theorem get?_sortedMembers (members : Fields Json) (name : String) :
    Fields.get? (sortedMembers members) name = (members.get? name).map sorted := by
  induction members with
  | nil => rfl
  | cons member rest ih =>
    rw [sortedMembers, Fields.get?_putSorted, ih, Fields.get?_cons]
    split <;> rfl

theorem sortedItems_eq_map (items : List Json) : sortedItems items = items.map sorted := by
  induction items with
  | nil => rfl
  | cons item rest ih => rw [sortedItems, ih, List.map_cons]

/-- To bring members in order is to rearrange. -/
theorem rearranges_sorted : Rearranges sorted where
  null := rfl
  bool _ := rfl
  string _ := rfl
  array items := congrArg array (sortedItems_eq_map items)
  object members := ⟨sortedMembers members, rfl, get?_sortedMembers members⟩

theorem toJsonItems_ofJsonItems (items : List Json) :
    Script.Datum.toJsonItems (Script.Datum.ofJsonItems items) =
      items.map fun item => (Script.Datum.ofJson item).toJson := by
  induction items with
  | nil => rfl
  | cons item rest ih =>
    rw [Script.Datum.ofJsonItems, Script.Datum.toJsonItems, ih, List.map_cons]

theorem get?_toJsonMembers (members : Fields Script.Datum) (name : String) :
    Fields.get? (Script.Datum.toJsonMembers members) name =
      (members.get? name).map Script.Datum.toJson := by
  induction members with
  | nil => rfl
  | cons member rest ih =>
    rw [Script.Datum.toJsonMembers, Fields.get?_cons, Fields.get?_cons, ih]
    split <;> rfl

/-- To go through a script is to rearrange. -/
theorem rearranges_ofJson : Rearranges fun json => (Script.Datum.ofJson json).toJson where
  null := rfl
  bool _ := rfl
  string _ := rfl
  array items := congrArg array (toJsonItems_ofJsonItems items)
  object members := by
    refine ⟨_, rfl, fun name => ?_⟩
    rw [get?_toJsonMembers, (get?_ofJsonMembers members name).2, Option.map_map]
    rfl

/-! ### Numerals -/

/-- Values that are numbers are the same if the numbers are equal. -/
theorem same_iff_of_number? {a b : Json} {p q : Extended} (ha : a.number? = some p)
    (hb : b.number? = some q) : Same a b ↔ p = q := by
  constructor
  · intro h
    cases h with
    | number first second =>
      rw [ha] at first
      rw [hb] at second
      exact (Option.some.inj first).trans (Option.some.inj second).symm
    | _ => cases ha
  · rintro rfl
    exact .number ha hb

end Json

/-- A double that is a rational number is finite. -/
theorem Double.isFinite_of_value {x : Float} {q : ℚ} (h : value x = some (.ofRat q)) :
    x.isFinite = true := by
  rw [value] at h
  show x.toModel.unpack.isFinite = true
  cases hx : x.toModel.unpack with
  | infinity s =>
    rw [hx] at h
    cases s <;> cases h
  | notANumber =>
    rw [hx] at h
    cases h
  | _ => rfl

/-- Whether an integer is a double. -/
def Decimal.IsExact (n : ℤ) : Prop := Double.value (ofInt n) = some (.ofRat n)

namespace Json

namespace Numeral

variable {n : Numeral} {json a b : Json}

/-- Whether a numeral is a double if it is an integer of the range from `-2 ^ 63` to `high`. -/
def Keeps (high : ℤ) (n : Numeral) : Prop :=
  n.isIntegral = true → -0x8000000000000000 ≤ n.toInt → n.toInt < high → Decimal.IsExact n.toInt

/-- The double nearest to an integral numeral is the double nearest to the integer, but for the sign of a
zero. -/
theorem value_toFloat (h : n.isIntegral = true) :
    Double.value n.toFloat = Double.value (Decimal.ofInt n.toInt) := by
  obtain ⟨negative, whole, fraction, exponent⟩ := n
  obtain ⟨rfl, rfl⟩ : fraction = none ∧ exponent = none := by
    simpa [isIntegral] using h
  have hfloat : toFloat ⟨negative, whole, none, none⟩ =
      Decimal.nearestSigned negative (Decimal.natOfDigits whole) 0 := by
    rw [toFloat]
    dsimp only
    rw [Option.getD_none, List.append_nil]
    rfl
  rw [hfloat, toInt, Decimal.ofInt]
  dsimp only
  generalize Decimal.natOfDigits whole = m
  cases negative with
  | false =>
    have hpositive : decide ((m : ℤ) < 0) = false := decide_eq_false (by omega)
    rw [if_neg Bool.false_ne_true, hpositive, Int.natAbs_natCast]
  | true =>
    rw [if_pos rfl, Int.natAbs_neg, Int.natAbs_natCast]
    rcases Nat.eq_zero_or_pos m with rfl | hpos
    · rfl
    · rw [decide_eq_true (by omega)]

/-- A numeral is read as an integer, or as the double nearest to it. An integer of 64 bits is read as a
double only if it is a negative zero. -/
theorem ofNumeral_cases (h : ofNumeral n = some json) :
    (n.isIntegral = true ∧ (-0x8000000000000000 ≤ n.toInt ∧ n.toInt < 0x10000000000000000) ∧
      json = integer n.toInt) ∨
    json = real n.toFloat ∧ n.toFloat.isInf = false ∧ (n.isIntegral = true →
      -0x8000000000000000 ≤ n.toInt → n.toInt < 0x10000000000000000 → n.toInt = 0) := by
  unfold ofNumeral at h
  dsimp only at h
  split at h
  · rename_i hword
    simp only [Bool.and_eq_true, decide_eq_true_eq] at hword
    obtain ⟨⟨hintegral, hrange⟩, -⟩ := hword
    cases h
    exact .inl ⟨hintegral, hrange, rfl⟩
  · rename_i hword
    split at h
    · cases h
    · rename_i hinf
      cases h
      -- An integer in the range is read as a word, but for the zero that has a sign.
      refine .inr ⟨rfl, Bool.not_eq_true _ |>.mp hinf, fun hintegral hlow hhigh => ?_⟩
      by_contra hne
      simp [hintegral, hlow, hhigh, hne] at hword

theorem isFinite_toFloat (h : ofNumeral n = some json) : n.toFloat.isFinite = true := by
  rcases ofNumeral_cases h with ⟨hintegral, hrange, -⟩ | ⟨-, hinf, -⟩
  · -- The integer has at most 64 bits, so the nearest double is not infinite.
    have hlog : n.toInt.natAbs.log2 < 1023 := by
      rcases Nat.eq_zero_or_pos n.toInt.natAbs with hzero | hpos
      · rw [hzero]
        decide
      · have hlt : n.toInt.natAbs.log2 < 65 := (Nat.log2_lt hpos.ne').2 (by omega)
        omega
    obtain ⟨q, hq⟩ := Decimal.exists_value_ofInt hlog
    exact Double.isFinite_of_value ((value_toFloat hintegral).trans hq)
  · have hnan : n.toFloat.isNaN = false := Decimal.isNaN_nearestSigned _ _ _
    rw [Double.isFinite_eq, hnan, hinf]
    rfl

/-- Without escapes a numeral is read as an integer of 32 bits, or as the double nearest to it. -/
theorem verbatim_cases (hfinite : n.toFloat.isFinite = true)
    (h : Value.numberJson (Verbatim.ofNumeral n) = some json) :
    (n.isIntegral = true ∧ (-0x80000000 ≤ n.toInt ∧ n.toInt < 0x80000000) ∧
      json = integer n.toInt) ∨ json = real n.toFloat := by
  unfold Verbatim.ofNumeral at h
  dsimp only at h
  split at h
  · rename_i hword
    simp only [Bool.and_eq_true, decide_eq_true_eq] at hword
    obtain ⟨hintegral, hrange⟩ := hword
    have hint : (Int32.ofInt n.toInt).toInt = n.toInt := Int32.toInt_ofInt_of_le (by omega) (by omega)
    cases h
    exact .inl ⟨hintegral, hrange, congrArg integer hint⟩
  · have hform : (n.toFloat.isNaN || n.toFloat.isInf) = false := by
      rwa [Double.isFinite_eq, Bool.not_eq_true'] at hfinite
    rw [Value.numberJson, hform] at h
    cases h
    exact .inr rfl

/-- Whether a value is the number of a numeral, where integers of the range from `-2 ^ 63` to `high`
stand for themselves and all other numerals for the nearest double. -/
structure Gives (high : ℤ) (n : Numeral) (json : Json) : Prop where
  finite : n.toFloat.isFinite = true
  number_eq : json.number? =
    if n.isIntegral = true ∧ -0x8000000000000000 ≤ n.toInt ∧ n.toInt < high then some (.ofRat n.toInt)
    else Double.value n.toFloat

/-- A value that is the double nearest to the numeral gives its number if the double is the integer. -/
theorem gives_of_value {high : ℤ} (hfinite : n.toFloat.isFinite = true)
    (h : json.number? = Double.value n.toFloat)
    (hzero : n.isIntegral = true → -0x8000000000000000 ≤ n.toInt → n.toInt < high → n.toInt = 0) :
    n.Gives high json := by
  refine ⟨hfinite, h.trans ?_⟩
  split
  · rename_i hword
    rw [value_toFloat hword.1, hzero hword.1 hword.2.1 hword.2.2]
    exact Decimal.value_ofInt (by decide)
  · rfl

theorem Gives.same_iff {high : ℤ} (hb : n.Gives high b) (ha : a.number? = Double.value n.toFloat) :
    Same a b ↔ n.Keeps high := by
  obtain ⟨hfinite, hb⟩ := hb
  obtain ⟨q, hq⟩ := Double.exists_value_of_isFinite hfinite
  rw [hq] at ha hb
  split at hb
  · rename_i hword
    rw [same_iff_of_number? ha hb, Keeps, Decimal.IsExact, ← value_toFloat hword.1, hq, Option.some_inj]
    exact ⟨fun heq _ _ _ => heq, fun h => h hword.1 hword.2.1 hword.2.2⟩
  · rename_i hword
    exact iff_of_true ((same_iff_of_number? ha hb).2 rfl) fun hintegral hlow hhigh =>
      absurd ⟨hintegral, hlow, hhigh⟩ hword

/-! ### Numerals as they are read -/

theorem number?_verbatim (hfinite : n.toFloat.isFinite = true)
    (h : Value.numberJson (Verbatim.ofNumeral n) = some json) :
    json.number? = Double.value n.toFloat := by
  rcases verbatim_cases hfinite h with ⟨hintegral, hrange, rfl⟩ | rfl
  · rw [value_toFloat hintegral, Decimal.value_ofInt (by omega)]
    rfl
  · rfl

theorem gives_sorted (h : ofNumeral n = some json) : n.Gives 0x10000000000000000 json.sorted := by
  have hfinite := isFinite_toFloat h
  rcases ofNumeral_cases h with ⟨hintegral, hrange, rfl⟩ | ⟨rfl, -, hzero⟩
  · exact ⟨hfinite, (if_pos ⟨hintegral, hrange⟩).symm⟩
  · exact gives_of_value hfinite rfl hzero

/-! ### Numerals in a script -/

open Script

theorem number?_ofJson_integer {k : ℤ} (h : -0x8000000000000000 ≤ k ∧ k < 0x8000000000000000) :
    (Datum.ofJson (.integer k)).toJson.number? = some (.ofRat k) := by
  have hint : (Int64.ofInt k).toInt = k := Int64.toInt_ofInt_of_le (by omega) (by omega)
  rw [Datum.ofJson, if_pos h, Datum.toJson, number?, hint]

theorem number?_toJson_float {x : Float} (h : x.isFinite = true) :
    (Datum.float x).toJson.number? = Double.value x := by
  have hform : (x.isNaN || x.isInf) = false := by
    rwa [Double.isFinite_eq, Bool.not_eq_true'] at h
  rw [Datum.toJson, hform]
  rfl

theorem number?_ofJson_verbatim (hfinite : n.toFloat.isFinite = true)
    (h : Value.numberJson (Verbatim.ofNumeral n) = some json) :
    (Datum.ofJson json).toJson.number? = Double.value n.toFloat := by
  rw [← number?_verbatim hfinite h]
  rcases verbatim_cases hfinite h with ⟨-, hrange, rfl⟩ | rfl
  · exact number?_ofJson_integer (by omega)
  · exact number?_toJson_float hfinite

theorem gives_ofJson (h : ofNumeral n = some json) :
    n.Gives 0x8000000000000000 (Datum.ofJson json).toJson := by
  have hfinite := isFinite_toFloat h
  rcases ofNumeral_cases h with ⟨hintegral, hrange, rfl⟩ | ⟨rfl, -, hzero⟩
  · by_cases hsmall : n.toInt < 0x8000000000000000
    · exact ⟨hfinite, (number?_ofJson_integer ⟨hrange.1, hsmall⟩).trans
        (if_pos ⟨hintegral, hrange.1, hsmall⟩).symm⟩
    · -- An integer that has no signed word is a double in a script.
      have hvalue := value_toFloat hintegral
      obtain ⟨q, hq⟩ := Double.exists_value_of_isFinite hfinite
      have hnumber := number?_toJson_float (Double.isFinite_of_value (hvalue.symm.trans hq))
      refine ⟨hfinite, ?_⟩
      rw [if_neg fun h => hsmall h.2.2, hvalue, Datum.ofJson, if_neg fun h => hsmall h.2]
      exact hnumber
  · exact gives_of_value hfinite (number?_toJson_float hfinite) fun hintegral hlow hhigh =>
      hzero hintegral hlow (by omega)

end Numeral

namespace Written

open Script

variable {tree : Written} {form standard : Json}

/-- **A text is read as the same value with and without escapes if and only if nothing is lost
without.** -/
theorem same_sorted_iff (hform : tree.verbatim.toJson = some form)
    (hstandard : tree.standard = some standard) :
    Same form standard.sorted ↔ tree.Faithful (Numeral.Keeps 0x10000000000000000) := by
  have hread : Reads decode (Numeral.Gives 0x10000000000000000) tree standard.sorted :=
    (reads_of_standard hstandard).map rearranges_sorted fun _ _ => Numeral.gives_sorted
  exact agrees (fun n a b ha hb => hb.same_iff (Numeral.number?_verbatim hb.finite ha)) tree
    (reads_of_toJson hform) hread

/-- **A script gets the same value with and without escapes if and only if nothing is lost without.** The
integers of a script have a sign. -/
theorem same_toJson_iff (hform : tree.verbatim.toJson = some form)
    (hstandard : tree.standard = some standard) :
    Same (Datum.ofJson form).toJson (Datum.ofJson standard).toJson ↔
      tree.Faithful (Numeral.Keeps 0x8000000000000000) := by
  have hread : Reads some (fun n json => n.toFloat.isFinite = true →
      json.number? = Double.value n.toFloat) tree (Datum.ofJson form).toJson :=
    (reads_of_toJson hform).map rearranges_ofJson fun _ _ h hfinite =>
      Numeral.number?_ofJson_verbatim hfinite h
  have hread' : Reads decode (Numeral.Gives 0x8000000000000000) tree (Datum.ofJson standard).toJson :=
    (reads_of_standard hstandard).map rearranges_ofJson fun _ _ => Numeral.gives_ofJson
  exact agrees (fun n a b ha hb => hb.same_iff (ha hb.finite)) tree hread hread'

end Written

end Json
end Rulebook
