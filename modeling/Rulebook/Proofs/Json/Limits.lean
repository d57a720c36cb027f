import Rulebook.Proofs.Json.RoundTrip

/-!
# What the reader accepts

The values that the reader of JSON gives are nested no deeper than it may go, and their integers have
64 bits: `of_read?`.
-/

namespace Rulebook

namespace Fields

variable {α : Type}

theorem mem_put {fields : Fields α} {name : String} {value : α} {field : String × α}
    (h : field ∈ fields.put name value) : field = (name, value) ∨ field ∈ fields := by
  induction fields with
  | nil => exact .inl (List.mem_singleton.1 h)
  | cons first rest ih =>
    obtain ⟨k, v⟩ := first
    rw [put] at h
    split at h
    · rename_i hk
      rcases List.mem_cons.1 h with rfl | h
      · exact .inl (by rw [hk])
      · exact .inr (.tail _ h)
    · rcases List.mem_cons.1 h with rfl | h
      · exact .inr (.head _)
      · exact (ih h).imp id (.tail _)

theorem mem_ofPairs {pairs : List (String × α)} {field : String × α} (h : field ∈ ofPairs pairs) :
    field ∈ pairs := by
  have go (pairs acc : Fields α)
      (h : field ∈ pairs.foldl (fun fields pair => fields.put pair.1 pair.2) acc) :
      field ∈ acc ∨ field ∈ pairs := by
    induction pairs generalizing acc with
    | nil => exact .inl h
    | cons pair rest ih =>
      rcases ih _ h with h | h
      · rcases mem_put h with rfl | h
        · exact .inr (.head _)
        · exact .inl h
      · exact .inr (.tail _ h)
  exact (go pairs [] h).resolve_left List.not_mem_nil

theorem mem_putSorted {fields : Fields α} {name : String} {value : α} {field : String × α}
    (h : field ∈ fields.putSorted name value) : field = (name, value) ∨ field ∈ fields := by
  induction fields with
  | nil => exact .inl (List.mem_singleton.1 h)
  | cons first rest ih =>
    obtain ⟨k, v⟩ := first
    rw [putSorted] at h
    split at h
    · rename_i hk
      rcases List.mem_cons.1 h with rfl | h
      · exact .inl (by rw [hk])
      · exact .inr (.tail _ h)
    split at h
    · exact List.mem_cons.1 h
    · rcases List.mem_cons.1 h with rfl | h
      · exact .inr (.head _)
      · exact (ih h).imp id (.tail _)

theorem mem_of_get?_eq_some {fields : Fields α} {name : String} {value : α}
    (h : fields.get? name = some value) : (name, value) ∈ fields := by
  induction fields with
  | nil => cases h
  | cons field rest ih =>
    obtain ⟨key, other⟩ := field
    rw [get?_cons] at h
    split at h
    · cases h
      rename_i hkey
      rw [hkey]
      exact .head _
    · exact .tail _ (ih h)

end Fields

namespace Json

mutual

/-- Whether the integers of a value have 64 bits. -/
def IntegersFit : Json → Prop
  | integer n => -0x8000000000000000 ≤ n ∧ n < 0x10000000000000000
  | array items => IntegersFitItems items
  | object members => IntegersFitMembers members
  | _ => True

/-- Whether the integers of items have 64 bits. -/
def IntegersFitItems : List Json → Prop
  | [] => True
  | item :: rest => IntegersFit item ∧ IntegersFitItems rest

/-- Whether the integers of members have 64 bits. -/
def IntegersFitMembers : List (String × Json) → Prop
  | [] => True
  | (_, value) :: rest => IntegersFit value ∧ IntegersFitMembers rest

end

theorem depthMembers_le_iff {members : List (String × Json)} {limit : Nat} :
    depthMembers members ≤ limit ↔ ∀ member ∈ members, depth member.2 ≤ limit := by
  induction members with
  | nil => simp [depthMembers]
  | cons member rest ih =>
    obtain ⟨name, value⟩ := member
    rw [depthMembers, Nat.max_le, ih, List.forall_mem_cons]

theorem integersFitMembers_iff {members : List (String × Json)} :
    IntegersFitMembers members ↔ ∀ member ∈ members, IntegersFit member.2 := by
  induction members with
  | nil => simp [IntegersFitMembers]
  | cons member rest ih =>
    obtain ⟨name, value⟩ := member
    rw [IntegersFitMembers, ih, List.forall_mem_cons]

/-- Whether a value is within the bounds of the reader, which may open so many brackets. -/
def Within (limit : Nat) (value : Json) : Prop := depth value ≤ limit ∧ IntegersFit value

/-- Whether items are within the bounds of the reader. -/
def WithinItems (limit : Nat) (items : List Json) : Prop :=
  depthItems items ≤ limit ∧ IntegersFitItems items

/-- Whether members are within the bounds of the reader. -/
def WithinMembers (limit : Nat) (members : List (String × Json)) : Prop :=
  depthMembers members ≤ limit ∧ IntegersFitMembers members

theorem withinItems_nil (limit : Nat) : WithinItems limit [] := ⟨Nat.zero_le _, trivial⟩

theorem withinMembers_nil (limit : Nat) : WithinMembers limit [] := ⟨Nat.zero_le _, trivial⟩

theorem Within.cons {limit : Nat} {item : Json} {items : List Json} (h : Within limit item)
    (h' : WithinItems limit items) : WithinItems limit (item :: items) :=
  ⟨Nat.max_le.2 ⟨h.1, h'.1⟩, h.2, h'.2⟩

theorem Within.consMember {limit : Nat} {value : Json} {members : List (String × Json)}
    (h : Within limit value) (h' : WithinMembers limit members) (name : String) :
    WithinMembers limit ((name, value) :: members) :=
  ⟨Nat.max_le.2 ⟨h.1, h'.1⟩, h.2, h'.2⟩

theorem within_of_ofNumeral {numeral : Numeral} {value : Json} (h : ofNumeral numeral = some value)
    (limit : Nat) : Within limit value := by
  unfold ofNumeral at h
  dsimp only at h
  split at h
  · rename_i hbounds
    cases h
    simp only [Bool.and_eq_true, decide_eq_true_eq] at hbounds
    exact ⟨Nat.zero_le _, hbounds.1.2⟩
  · split at h
    · cases h
    · cases h
      exact ⟨Nat.zero_le _, trivial⟩

/-- What is read with some fuel is within the bounds of the reader. -/
structure ReadsWithin (fuel : Nat) : Prop where
  value : ∀ {limit : Nat} {s after : List Char} {value : Json},
    readValue fuel limit s = some (value, after) → Within limit value
  items : ∀ {limit : Nat} {s after : List Char} {items : List Json},
    readItems fuel limit s = some (items, after) → WithinItems limit items
  members : ∀ {limit : Nat} {s after : List Char} {members : List (String × Json)},
    readMembers fuel limit s = some (members, after) → WithinMembers limit members

namespace ReadsWithin

variable {fuel limit : Nat} {s after : List Char}

theorem value_succ (h : ReadsWithin fuel) {value : Json}
    (hread : readValue (fuel + 1) limit s = some (value, after)) : Within limit value := by
  have leaf {j : Json} (hdepth : depth j = 0) (hfit : IntegersFit j) : Within limit j :=
    ⟨hdepth ▸ Nat.zero_le _, hfit⟩
  rw [readValue] at hread
  split at hread
  · cases hread
    exact leaf rfl trivial
  · cases hread
    exact leaf rfl trivial
  · cases hread
    exact leaf rfl trivial
  · obtain ⟨⟨text, rest⟩, -, hread⟩ := Option.bind_eq_some_iff.1 hread
    cases hread
    exact leaf rfl trivial
  · split at hread
    · cases hread
    · rename_i hlimit
      split at hread
      · cases hread
        exact ⟨Nat.pos_of_ne_zero hlimit, trivial⟩
      · obtain ⟨⟨items, rest⟩, hitems, hread⟩ := Option.bind_eq_some_iff.1 hread
        cases hread
        obtain ⟨hdepth, hfit⟩ := h.items hitems
        exact ⟨by rw [depth]; omega, hfit⟩
  · split at hread
    · cases hread
    · rename_i hlimit
      split at hread
      · cases hread
        exact ⟨Nat.pos_of_ne_zero hlimit, trivial⟩
      · obtain ⟨⟨members, rest⟩, hmembers, hread⟩ := Option.bind_eq_some_iff.1 hread
        cases hread
        obtain ⟨hdepth, hfit⟩ := h.members hmembers
        -- a name that comes again replaces a member and adds none
        have hdepth' : depthMembers (Fields.ofPairs members) ≤ limit - 1 :=
          depthMembers_le_iff.2 fun m hm =>
            depthMembers_le_iff.1 hdepth m (Fields.mem_ofPairs hm)
        have hfit' : IntegersFitMembers (Fields.ofPairs members) :=
          integersFitMembers_iff.2 fun m hm =>
            integersFitMembers_iff.1 hfit m (Fields.mem_ofPairs hm)
        exact ⟨by rw [depth]; omega, hfit'⟩
  · obtain ⟨⟨numeral, rest⟩, -, hread⟩ := Option.bind_eq_some_iff.1 hread
    obtain ⟨found, hfound, hread⟩ := Option.bind_eq_some_iff.1 hread
    cases hread
    exact within_of_ofNumeral hfound limit

theorem items_succ (h : ReadsWithin fuel) {items : List Json}
    (hread : readItems (fuel + 1) limit s = some (items, after)) : WithinItems limit items := by
  rw [readItems_succ] at hread
  obtain ⟨⟨item, rest⟩, hitem, hread⟩ := Option.bind_eq_some_iff.1 hread
  dsimp only [moreItems] at hread
  split at hread
  · obtain ⟨⟨more, rest⟩, hmore, hread⟩ := Option.bind_eq_some_iff.1 hread
    cases hread
    exact (h.value hitem).cons (h.items hmore)
  · cases hread
    exact (h.value hitem).cons (withinItems_nil limit)
  · cases hread

theorem members_succ (h : ReadsWithin fuel) {members : List (String × Json)}
    (hread : readMembers (fuel + 1) limit s = some (members, after)) :
    WithinMembers limit members := by
  rw [readMembers] at hread
  split at hread
  · obtain ⟨⟨name, rest⟩, -, hread⟩ := Option.bind_eq_some_iff.1 hread
    dsimp only at hread
    split at hread
    · obtain ⟨⟨value, rest⟩, hvalue, hread⟩ := Option.bind_eq_some_iff.1 hread
      dsimp only at hread
      split at hread
      · obtain ⟨⟨more, rest⟩, hmore, hread⟩ := Option.bind_eq_some_iff.1 hread
        cases hread
        exact (h.value hvalue).consMember (h.members hmore) name
      · cases hread
        exact (h.value hvalue).consMember (withinMembers_nil limit) name
      · cases hread
    · cases hread
  · cases hread

end ReadsWithin

theorem readsWithin (fuel : Nat) : ReadsWithin fuel := by
  induction fuel with
  | zero =>
    constructor <;>
    · intro limit s after found h
      cases h
  | succ fuel ih => exact ⟨ih.value_succ, ih.items_succ, ih.members_succ⟩

/-- The values that texts denote are within the bounds of the reader. -/
theorem within_of_read? {text : String} {value : Json} (h : read? text = some value) :
    Within maxDepth value := by
  obtain ⟨⟨found, rest⟩, hread, h⟩ := Option.bind_eq_some_iff.1 h
  obtain ⟨-, h⟩ := Option.ite_none_right_eq_some.1 h
  cases h
  exact (readsWithin _).value hread

end Json
end Rulebook
