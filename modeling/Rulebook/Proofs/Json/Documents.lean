import Rulebook.Proofs.Json.Limits
import Rulebook.Script.Exchange

/-!
# Documents are read back

A document is a script value that JSON has a form for. Its text denotes it again, unless its lists and
maps are nested too deeply for the reader, which the printer does not mind: `readJson?_toJson`.
-/

namespace Rulebook

namespace Fields

variable {α : Type}

theorem put_of_not_mem {fields : Fields α} {name : String} (h : name ∉ fields.names) (value : α) :
    fields.put name value = fields ++ [(name, value)] := by
  induction fields with
  | nil => rfl
  | cons field rest ih =>
    obtain ⟨k, v⟩ := field
    have hk : k ≠ name := fun hk => h (hk ▸ .head _)
    rw [put, if_neg hk, ih fun hmem => h (.tail _ hmem), List.cons_append]

/-- Pairs under distinct names stay as they are. -/
theorem ofPairs_of_nodup {pairs : List (String × α)} (h : (names pairs).Nodup) :
    ofPairs pairs = pairs := by
  have go (pairs acc : Fields α) (h : (names (acc ++ pairs)).Nodup) :
      pairs.foldl (fun fields pair => fields.put pair.1 pair.2) acc = acc ++ pairs := by
    induction pairs generalizing acc with
    | nil => exact (List.append_nil acc).symm
    | cons pair rest ih =>
      have hnew : pair.1 ∉ names acc := by
        rw [names, List.map_append, List.map_cons, List.nodup_append] at h
        intro hmem
        exact h.2.2 _ hmem _ (.head _) rfl
      rw [List.foldl_cons, put_of_not_mem hnew, ih _ (by simpa using h), List.append_assoc]
      rfl
  exact go pairs [] h

/-- A name below all others is put in front. -/
theorem putSorted_of_lt {fields : Fields α} {name : String} (h : ∀ k ∈ fields.names, name < k)
    (value : α) : fields.putSorted name value = (name, value) :: fields := by
  cases fields with
  | nil => rfl
  | cons field rest =>
    obtain ⟨k, v⟩ := field
    have hlt : name < k := h k (.head _)
    have hk : k ≠ name := by
      rintro rfl
      exact String.lt_irrefl _ hlt
    rw [putSorted, if_neg hk, if_pos hlt]

end Fields

namespace Script.Datum

mutual

/-- Whether a value is made of units, truth values, integers, finite doubles, texts, lists and maps;
the doubles are read back from their own texts. -/
def IsDocument : Datum → Prop
  | unit => True
  | bool _ => True
  | int _ => True
  | float x => Json.ReadsBack x
  | text _ => True
  | list items => AreDocuments items
  | map members => members.Pairwise (·.1 < ·.1) ∧ MembersAreDocuments members
  | _ => False

/-- Whether items are documents. -/
def AreDocuments : List Datum → Prop
  | [] => True
  | item :: rest => IsDocument item ∧ AreDocuments rest

/-- Whether the values of members are documents. -/
def MembersAreDocuments : List (String × Datum) → Prop
  | [] => True
  | (_, value) :: rest => IsDocument value ∧ MembersAreDocuments rest

end

theorem names_toJsonMembers (members : List (String × Datum)) :
    Fields.names (toJsonMembers members) = Fields.names members := by
  induction members with
  | nil => rfl
  | cons member rest ih =>
    obtain ⟨name, value⟩ := member
    exact congrArg (name :: ·) ih

theorem toJson_float {x : Float} (h : Json.ReadsBack x) : toJson (float x) = .real x := by
  rw [toJson, h.isNumber, h.isFinite]
  rfl

mutual

theorem writable_toJson : ∀ {d : Datum}, IsDocument d → Json.Writable (toJson d)
  | unit, _ => trivial
  | bool _, _ => trivial
  | int n, _ => by
    have hlow := Int64.le_toInt n
    have hhigh := Int64.toInt_lt n
    show _ ≤ n.toInt ∧ n.toInt < _
    omega
  | float x, h => by
    rw [toJson_float h]
    exact h
  | text _, _ => trivial
  | list _, h => writable_toJsonItems h
  | map _, h => writable_toJsonMembers h.2

theorem writable_toJsonItems : ∀ {items : List Datum}, AreDocuments items →
    Json.WritableItems (toJsonItems items)
  | [], _ => trivial
  | _ :: _, h => ⟨writable_toJson h.1, writable_toJsonItems h.2⟩

theorem writable_toJsonMembers : ∀ {members : List (String × Datum)}, MembersAreDocuments members →
    Json.WritableMembers (toJsonMembers members)
  | [], _ => trivial
  | (_, _) :: _, h => ⟨writable_toJson h.1, writable_toJsonMembers h.2⟩

end

/-- The names of a map are distinct. -/
theorem nodup_of_pairwise {α : Type} {members : List (String × α)} (h : members.Pairwise (·.1 < ·.1)) :
    (Fields.names members).Nodup := by
  rw [Fields.names, List.nodup_iff_pairwise_ne, List.pairwise_map]
  refine h.imp fun hlt heq => ?_
  rw [heq] at hlt
  exact String.lt_irrefl _ hlt

mutual

theorem settled_toJson : ∀ {d : Datum}, IsDocument d → Json.settled (toJson d) = toJson d
  | unit, _ => rfl
  | bool _, _ => rfl
  | int _, _ => rfl
  | float x, h => by
    rw [toJson_float h]
    rfl
  | text _, _ => rfl
  | list _, h => congrArg Json.array (settled_toJsonItems h)
  | map members, h => by
    rw [toJson, Json.settled, settled_toJsonMembers h.2, Fields.ofPairs_of_nodup]
    rw [names_toJsonMembers]
    exact nodup_of_pairwise h.1

theorem settled_toJsonItems : ∀ {items : List Datum}, AreDocuments items →
    Json.settledItems (toJsonItems items) = toJsonItems items
  | [], _ => rfl
  | _ :: _, h => by
    rw [toJsonItems, Json.settledItems, settled_toJson h.1, settled_toJsonItems h.2]

theorem settled_toJsonMembers : ∀ {members : List (String × Datum)}, MembersAreDocuments members →
    Json.settledMembers (toJsonMembers members) = toJsonMembers members
  | [], _ => rfl
  | (_, _) :: _, h => by
    rw [toJsonMembers, Json.settledMembers, settled_toJson h.1, settled_toJsonMembers h.2]

end

mutual

theorem ofJson_toJson : ∀ {d : Datum}, IsDocument d → ofJson (toJson d) = d
  | unit, _ => rfl
  | bool _, _ => rfl
  | int n, _ => by
    have hlow := Int64.le_toInt n
    have hhigh := Int64.toInt_lt n
    rw [toJson, ofJson, if_pos (by omega), Int64.ofInt_toInt]
  | float x, h => by
    rw [toJson_float h]
    rfl
  | text _, _ => rfl
  | list _, h => congrArg list (ofJsonItems_toJsonItems h)
  | map _, h => congrArg map (ofJsonMembers_toJsonMembers h.1 h.2)

theorem ofJsonItems_toJsonItems : ∀ {items : List Datum}, AreDocuments items →
    ofJsonItems (toJsonItems items) = items
  | [], _ => rfl
  | _ :: _, h => by
    rw [toJsonItems, ofJsonItems, ofJson_toJson h.1, ofJsonItems_toJsonItems h.2]

theorem ofJsonMembers_toJsonMembers : ∀ {members : List (String × Datum)},
    members.Pairwise (·.1 < ·.1) → MembersAreDocuments members →
    ofJsonMembers (toJsonMembers members) = members
  | [], _, _ => rfl
  | (name, _) :: rest, hsorted, h => by
    obtain ⟨hfirst, hrest⟩ := List.pairwise_cons.1 hsorted
    have hleast : ∀ k ∈ Fields.names rest, name < k := by
      intro k hk
      obtain ⟨member, hmember, rfl⟩ := List.mem_map.1 hk
      exact hfirst member hmember
    rw [toJsonMembers, ofJsonMembers, ofJson_toJson h.1, ofJsonMembers_toJsonMembers hrest h.2,
      Fields.putSorted_of_lt hleast]

end

/-- The text of a document denotes the document, unless its lists and maps are nested more deeply than
the reader goes. -/
theorem readJson?_toJson {d : Datum} (h : IsDocument d) : readJson? (toJson d).compact =
    if (toJson d).depth ≤ Json.maxDepth then some d else none := by
  rw [readJson?, Json.read?_compact (writable_toJson h), settled_toJson h]
  split
  · exact congrArg some (ofJson_toJson h)
  · rfl

/-! ### Documents that were read -/

theorem depthMembers_toJsonMembers_le_iff {members : List (String × Datum)} {limit : Nat} :
    Json.depthMembers (toJsonMembers members) ≤ limit ↔
      ∀ member ∈ members, (toJson member.2).depth ≤ limit := by
  induction members with
  | nil => simp [toJsonMembers, Json.depthMembers]
  | cons member rest ih =>
    obtain ⟨name, value⟩ := member
    rw [toJsonMembers, Json.depthMembers, Nat.max_le, ih, List.forall_mem_cons]

theorem depth_toJson_float (x : Float) : (toJson (float x)).depth = 0 := by
  rw [toJson]
  split <;> rfl

mutual

/-- A script value is nested no more deeply than the JSON value that it was read from. -/
theorem depth_toJson_ofJson : ∀ value : Json, (toJson (ofJson value)).depth ≤ value.depth
  | .null => Nat.le_refl 0
  | .bool _ => Nat.le_refl 0
  | .integer n => by
    rw [ofJson]
    split
    · exact Nat.zero_le _
    · exact Nat.le_of_eq (depth_toJson_float _)
  | .real x => Nat.le_of_eq (depth_toJson_float x)
  | .string _ => Nat.le_refl 0
  | .array items => Nat.add_le_add_right (depth_toJsonItems_ofJsonItems items) 1
  | .object members => Nat.add_le_add_right (depth_toJsonMembers_ofJsonMembers members) 1

theorem depth_toJsonItems_ofJsonItems : ∀ items : List Json,
    Json.depthItems (toJsonItems (ofJsonItems items)) ≤ Json.depthItems items
  | [] => Nat.le_refl 0
  | item :: rest => by
    have hitem := depth_toJson_ofJson item
    have hrest := depth_toJsonItems_ofJsonItems rest
    rw [ofJsonItems, toJsonItems, Json.depthItems, Json.depthItems]
    omega

theorem depth_toJsonMembers_ofJsonMembers : ∀ members : List (String × Json),
    Json.depthMembers (toJsonMembers (ofJsonMembers members)) ≤ Json.depthMembers members
  | [] => Nat.le_refl 0
  | (name, value) :: rest => by
    have hvalue := depth_toJson_ofJson value
    have hrest := depthMembers_toJsonMembers_le_iff.1 (depth_toJsonMembers_ofJsonMembers rest)
    refine depthMembers_toJsonMembers_le_iff.2 fun member hmember => ?_
    rw [Json.depthMembers]
    rcases Fields.mem_putSorted hmember with rfl | hmember
    · exact Nat.le_trans hvalue (Nat.le_max_left _ _)
    · exact Nat.le_trans (hrest member hmember) (Nat.le_max_right _ _)

end

/-- The text of a document that was read denotes the document. -/
theorem readJson?_toJson_of_readJson? {text : String} {d : Datum} (hread : readJson? text = some d)
    (h : IsDocument d) : readJson? (toJson d).compact = some d := by
  obtain ⟨value, hvalue, rfl⟩ := Option.map_eq_some_iff.1 hread
  have hdepth := depth_toJson_ofJson value
  have hlimit := (Json.within_of_read? hvalue).1
  rw [readJson?_toJson h, if_pos (by omega)]

end Script.Datum
end Rulebook
