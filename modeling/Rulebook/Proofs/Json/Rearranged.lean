import Mathlib
import Rulebook.Proofs.Configuration.Transcription
import Rulebook.Proofs.Parameter.Strings
import Rulebook.Proofs.Value.Rearranged

/-!
# JSON texts of rearranged values

The JSON forms of rearranged values differ only in the order of members (`rel_toJson`). A script reads
the members of an object into a map, in which they are in the order of their names. So it reads the same
value from the texts of rearranged values, if it reads them at all, which only depends on how deeply the
values are nested: `readJson?_of_rearranged`.
-/

namespace Rulebook

namespace Fields

variable {α : Type}

/-- Of two pairs of one name the later one counts. -/
theorem get?_ofPairs_append (first second : Fields α) (name : String) :
    get? (ofPairs (first ++ second)) name =
      (get? (ofPairs second) name).or (get? (ofPairs first) name) := by
  rw [get?_ofPairs, get?_ofPairs, get?_ofPairs, List.reverse_append, List.find?_append]
  cases second.reverse.find? (·.1 == name) <;> rfl

theorem pairwise_putSorted {fields : Fields α} (h : fields.Pairwise (·.1 < ·.1)) (name : String)
    (value : α) : (fields.putSorted name value).Pairwise (·.1 < ·.1) := by
  induction fields with
  | nil => exact List.pairwise_singleton _ _
  | cons field rest ih =>
    obtain ⟨hfirst, hrest⟩ := List.pairwise_cons.1 h
    rw [putSorted]
    split
    · rename_i hname
      exact List.pairwise_cons.2 ⟨hfirst, hrest⟩
    · rename_i hname
      split
      · rename_i hlt
        refine List.pairwise_cons.2 ⟨fun other hother => ?_, h⟩
        rcases List.mem_cons.1 hother with rfl | hother
        · exact hlt
        · exact hlt.trans (hfirst other hother)
      · rename_i hlt
        refine List.pairwise_cons.2 ⟨fun other hother => ?_, ih hrest⟩
        rcases mem_putSorted hother with rfl | hother
        · exact lt_of_le_of_ne (not_lt.1 hlt) hname
        · exact hfirst other hother

/-- Every field of a list in the order of the names that begins with a name is at that name or behind it. -/
theorem le_of_get?_eq_some {fields : Fields α} {first : String × α} {name : String} {value : α}
    (h : (first :: fields).Pairwise (·.1 < ·.1)) (hget : get? (first :: fields) name = some value) :
    first.1 ≤ name := by
  rcases List.mem_cons.1 (mem_of_get?_eq_some hget) with heq | hmem
  · rw [← heq]
  · exact ((List.pairwise_cons.1 h).1 _ hmem).le

/-- Fields in the order of their names are known if every look-up is. -/
theorem eq_of_get?_eq {first second : Fields α} (hfirst : first.Pairwise (·.1 < ·.1))
    (hsecond : second.Pairwise (·.1 < ·.1)) (h : ∀ name, first.get? name = second.get? name) :
    first = second := by
  have hself (field : String × α) (rest : Fields α) :
      get? (field :: rest) field.1 = some field.2 := if_pos rfl
  have hnone {field : String × α} {rest : Fields α} (hrest : (field :: rest).Pairwise (·.1 < ·.1)) :
      get? rest field.1 = none := by
    refine get?_eq_none fun hmem => ?_
    obtain ⟨other, hother, hname⟩ := List.mem_map.1 hmem
    exact lt_irrefl _ (hname ▸ (List.pairwise_cons.1 hrest).1 other hother)
  induction first generalizing second with
  | nil =>
    cases second with
    | nil => rfl
    | cons b second => cases (h b.1).trans (hself b second)
  | cons a first ih =>
    cases second with
    | nil => cases (hself a first).symm.trans (h a.1)
    | cons b second =>
      have hname : a.1 = b.1 :=
        le_antisymm (le_of_get?_eq_some hfirst ((h b.1).trans (hself b second)))
          (le_of_get?_eq_some hsecond ((h a.1).symm.trans (hself a first)))
      have hvalue : a.2 = b.2 := by
        have := (hself a first).symm.trans (h a.1)
        rw [hname, hself] at this
        exact Option.some.inj this
      have hhead : a = b := Prod.ext hname hvalue
      subst hhead
      refine congrArg (a :: ·) (ih (List.pairwise_cons.1 hfirst).2 (List.pairwise_cons.1 hsecond).2
        fun name => ?_)
      by_cases hother : a.1 = name
      · rw [← hother, hnone hfirst, hnone hsecond]
      · have := h name
        rwa [get?_cons, get?_cons, if_neg hother, if_neg hother] at this

end Fields

open Script

namespace Json

/-- JSON values that only differ in the order in which objects list members of different names, at the
top or further inside. -/
inductive Reordered : Json → Json → Prop where
  | refl (json : Json) : Reordered json json
  | trans {first second third : Json} : Reordered first second → Reordered second third →
    Reordered first third
  /-- Two neighbours change places. -/
  | swap (front : Fields Json) {a b : String × Json} (rest : Fields Json) (names : a.1 ≠ b.1) :
    Reordered (object (front ++ a :: b :: rest)) (object (front ++ b :: a :: rest))
  | member (front : Fields Json) (name : String) {json json' : Json} (rest : Fields Json) :
    Reordered json json' →
    Reordered (object (front ++ (name, json) :: rest)) (object (front ++ (name, json') :: rest))
  | item (front : List Json) {json json' : Json} (rest : List Json) :
    Reordered json json' →
    Reordered (array (front ++ json :: rest)) (array (front ++ json' :: rest))

/-- JSON values that are nested equally deeply and that a script reads as the same value. -/
structure Alike (first second : Json) : Prop where
  depth : first.depth = second.depth
  datum : Datum.ofJson first.settled = Datum.ofJson second.settled

/-- Members that are nested equally deeply and that a script reads as the same value under every name. -/
structure MembersAlike (first second : Fields Json) : Prop where
  depth : depthMembers first = depthMembers second
  datum : ∀ name, ((Fields.ofPairs (settledMembers first)).get? name).map Datum.ofJson =
    ((Fields.ofPairs (settledMembers second)).get? name).map Datum.ofJson

theorem settledMembers_append (first second : Fields Json) :
    settledMembers (first ++ second) = settledMembers first ++ settledMembers second := by
  induction first with
  | nil => rfl
  | cons member rest ih => rw [List.cons_append, settledMembers, ih, settledMembers, List.cons_append]

theorem depthMembers_append (first second : Fields Json) :
    depthMembers (first ++ second) = max (depthMembers first) (depthMembers second) := by
  induction first with
  | nil => exact (Nat.zero_max _).symm
  | cons member rest ih => rw [List.cons_append, depthMembers, ih, depthMembers, Nat.max_assoc]

theorem MembersAlike.append {first second : Fields Json} (h : MembersAlike first second)
    (front rest : Fields Json) :
    MembersAlike (front ++ (first ++ rest)) (front ++ (second ++ rest)) where
  depth := by simp only [depthMembers_append, h.depth]
  datum name := by
    have := h.datum name
    simp only [settledMembers_append, Fields.get?_ofPairs_append]
    generalize (Fields.ofPairs (settledMembers first)).get? name = found at this
    generalize (Fields.ofPairs (settledMembers second)).get? name = found' at this
    cases (Fields.ofPairs (settledMembers rest)).get? name with
    | some value => rfl
    | none => cases found <;> cases found' <;> simp_all

theorem pairwise_ofJsonMembers (members : Fields Json) :
    (Datum.ofJsonMembers members).Pairwise (·.1 < ·.1) := by
  induction members with
  | nil => exact .nil
  | cons member rest ih => exact Fields.pairwise_putSorted ih _ _

theorem MembersAlike.object {first second : Fields Json} (h : MembersAlike first second) :
    Alike (object first) (object second) where
  depth := congrArg (· + 1) h.depth
  datum := congrArg Datum.map <| Fields.eq_of_get?_eq (pairwise_ofJsonMembers _)
    (pairwise_ofJsonMembers _) fun name => by
      rw [(get?_ofJsonMembers _ name).2, (get?_ofJsonMembers _ name).2, h.datum]

theorem membersAlike_single {value value' : Json} (h : Alike value value') (name : String) :
    MembersAlike [(name, value)] [(name, value')] where
  depth := by simp only [depthMembers, h.depth]
  datum other := by
    change Option.map _ (if name = other then some value.settled else none) =
      Option.map _ (if name = other then some value'.settled else none)
    split
    · exact congrArg some h.datum
    · rfl

theorem membersAlike_swap {name name' : String} (names : name ≠ name') (value value' : Json) :
    MembersAlike [(name, value), (name', value')] [(name', value'), (name, value)] where
  depth := by
    simp only [depthMembers, Nat.max_zero]
    exact Nat.max_comm _ _
  datum other := by
    have hsingle (pair : String × Json) : Fields.ofPairs [pair] = [pair] := rfl
    have hpair (a b : String × Json) : (Fields.ofPairs [a, b]).get? other =
        (if b.1 = other then some b.2 else none).or (if a.1 = other then some a.2 else none) :=
      Fields.get?_ofPairs_append [a] [b] other
    simp only [settledMembers, hpair]
    by_cases hname : name = other
    · have hname' : name' ≠ other := fun h => names (hname.trans h.symm)
      simp [hname, hname']
    · simp [hname]

theorem depthItems_append (first second : List Json) :
    depthItems (first ++ second) = max (depthItems first) (depthItems second) := by
  induction first with
  | nil => exact (Nat.zero_max _).symm
  | cons item rest ih => rw [List.cons_append, depthItems, ih, depthItems, Nat.max_assoc]

theorem ofJson_settled_array (items : List Json) :
    Datum.ofJson (array items).settled = .list (items.map fun item => Datum.ofJson item.settled) := by
  have hitems : Datum.ofJsonItems (settledItems items) = items.map fun item =>
      Datum.ofJson item.settled := by
    induction items with
    | nil => rfl
    | cons item rest ih => rw [settledItems, Datum.ofJsonItems, ih, List.map_cons]
  exact congrArg Datum.list hitems

theorem Alike.item {value value' : Json} (h : Alike value value') (front rest : List Json) :
    Alike (array (front ++ value :: rest)) (array (front ++ value' :: rest)) where
  depth := by
    change depthItems _ + 1 = depthItems _ + 1
    simp only [depthItems_append, depthItems, h.depth]
  datum := by
    simp only [ofJson_settled_array, List.map_append, List.map_cons, h.datum]

/-- A script does not see the order of members. -/
theorem Reordered.alike {first second : Json} (h : Reordered first second) : Alike first second := by
  induction h with
  | refl json => exact ⟨rfl, rfl⟩
  | trans _ _ ih ih' => exact ⟨ih.depth.trans ih'.depth, ih.datum.trans ih'.datum⟩
  | @swap front a b rest names => exact ((membersAlike_swap names a.2 b.2).append front rest).object
  | member front name rest _ ih => exact ((membersAlike_single ih name).append front rest).object
  | item front rest _ ih => exact ih.item front rest

end Json

namespace Value

open Json

theorem toJsonFields_append (first second : Fields Value) : toJsonFields (first ++ second) =
    (toJsonFields first).bind fun a => (toJsonFields second).map (a ++ ·) := by
  induction first with
  | nil => exact (congrFun Option.map_id _).symm
  | cons field rest ih =>
    obtain ⟨name, value⟩ := field
    rw [List.cons_append, toJsonFields, toJsonFields, ih]
    cases toJson value <;> cases toJsonFields rest <;> cases toJsonFields second <;> rfl

theorem toJsonItems_append (first second : List Value) : toJsonItems (first ++ second) =
    (toJsonItems first).bind fun a => (toJsonItems second).map (a ++ ·) := by
  induction first with
  | nil => exact (congrFun Option.map_id _).symm
  | cons item rest ih =>
    rw [List.cons_append, toJsonItems, toJsonItems, ih]
    cases toJson item <;> cases toJsonItems rest <;> cases toJsonItems second <;> rfl

/-- A group of members with a reordered one in its place. -/
theorem rel_toJson_record {middle middle' : Fields Value}
    (h : Option.Rel (fun found found' => ∀ front rest : Fields Json,
        Reordered (object (front ++ (found ++ rest))) (object (front ++ (found' ++ rest))))
      (toJsonFields middle) (toJsonFields middle')) (front rest : Fields Value) :
    Option.Rel Reordered (toJson (record (front ++ (middle ++ rest))))
      (toJson (record (front ++ (middle' ++ rest)))) := by
  simp only [toJson, toJsonFields_append]
  generalize toJsonFields middle = found at h
  generalize toJsonFields middle' = found' at h
  cases toJsonFields front with
  | none => exact .none
  | some front =>
    cases h with
    | none => exact .none
    | some h =>
      cases toJsonFields rest with
      | none => exact .none
      | some rest => exact .some (h front rest)

/-- The JSON forms of rearranged values differ only in the order of members, if there are any. -/
theorem rel_toJson {value value' : Value} (h : Rearranged value value') :
    Option.Rel Reordered (toJson value) (toJson value') := by
  induction h with
  | refl value =>
    cases toJson value with
    | none => exact .none
    | some json => exact .some (.refl json)
  | @trans first second third _ _ ih ih' =>
    generalize toJson first = before at ih
    generalize toJson second = middle at ih ih'
    generalize toJson third = after at ih'
    cases ih with
    | none => exact ih'
    | some h =>
      cases ih' with
      | some h' => exact .some (h.trans h')
  | @swap front a b rest names =>
    refine @rel_toJson_record [a, b] [b, a] ?_ front rest
    simp only [toJsonFields]
    cases toJson a.2 with
    | none => cases toJson b.2 <;> exact .none
    | some json =>
      cases toJson b.2 with
      | none => exact .none
      | some json' => exact .some fun front rest => .swap front rest names
  | @field front name value value' rest _ ih =>
    refine @rel_toJson_record [(name, value)] [(name, value')] ?_ front rest
    simp only [toJsonFields]
    generalize toJson value = found at ih
    generalize toJson value' = found' at ih
    cases ih with
    | none => exact .none
    | some h => exact .some fun front rest => .member front name rest h
  | @item front value value' rest _ ih =>
    simp only [toJson, toJsonItems_append, toJsonItems]
    generalize toJson value = found at ih
    generalize toJson value' = found' at ih
    cases toJsonItems front with
    | none => exact .none
    | some front =>
      cases ih with
      | none => exact .none
      | some h =>
        cases toJsonItems rest with
        | none => exact .none
        | some rest => exact .some (.item front rest h)

/-- A script reads the same value from the texts of rearranged values. -/
theorem readJson?_of_rearranged {value value' : Value} (h : Rearranged value value') :
    Option.Rel (fun json json' : Json => json.depth = json'.depth ∧
      Datum.readJson? json.compact = Datum.readJson? json'.compact) (toJson value) (toJson value') := by
  have hrel := rel_toJson h
  generalize hjson : toJson value = found at hrel ⊢
  generalize hjson' : toJson value' = found' at hrel ⊢
  cases hrel with
  | none => exact .none
  | some h =>
    have h := h.alike
    refine .some ⟨h.depth, ?_⟩
    rw [Datum.readJson?, Datum.readJson?,
      read?_compact (writable_toJson hjson (doublesReadBack _)),
      read?_compact (writable_toJson hjson' (doublesReadBack _)), h.depth]
    split
    · exact congrArg some h.datum
    · rfl

end Value

end Rulebook
