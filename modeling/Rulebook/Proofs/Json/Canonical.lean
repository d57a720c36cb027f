import Rulebook.Proofs.Json.Rearranged
import Rulebook.Proofs.Text.Bytes
import Rulebook.Proofs.Value.Agreement

/-!
# Sorting the members of a JSON value

`Json.sorted` brings the members of all objects, at every depth, into the order of the bytes of their
names (`inOrder_sorted`). It only changes the order of members (`reordered_sorted`), so no member is
lost or doubled, as long as the names of an object are distinct, as they are in a map. Values that
differ only in the order of members become the same value (`Reordered.sorted_eq`), and a sorted value
stays as it is (`sorted_sorted`).
-/

namespace Rulebook.Json

/-- The induction principle of JSON values. -/
@[elab_as_elim]
theorem induct {motive : Json → Prop} (null : motive null) (bool : ∀ b, motive (bool b))
    (integer : ∀ n, motive (integer n)) (real : ∀ x, motive (real x))
    (string : ∀ s, motive (string s))
    (array : ∀ items, (∀ item ∈ items, motive item) → motive (array items))
    (object : ∀ members : Fields Json, (∀ member ∈ members, motive member.2) →
      motive (object members)) (json : Json) : motive json :=
  @Json.rec motive (fun items => ∀ item ∈ items, motive item)
    (fun members => ∀ member ∈ members, motive member.2) (fun member => motive member.2)
    null bool integer real string array object (fun _ h => nomatch h)
    (fun _ _ first rest => List.forall_mem_cons.2 ⟨first, rest⟩) (fun _ h => nomatch h)
    (fun _ _ first rest => List.forall_mem_cons.2 ⟨first, rest⟩) (fun _ _ h => h) json

/-- What holds of the members of every object of a value, at every depth. -/
inductive Everywhere (p : Fields Json → Prop) : Json → Prop where
  | null : Everywhere p .null
  | bool (b : Bool) : Everywhere p (.bool b)
  | integer (n : Int) : Everywhere p (.integer n)
  | real (x : Float) : Everywhere p (.real x)
  | string (s : String) : Everywhere p (.string s)
  | array {items : List Json} (inside : ∀ item ∈ items, Everywhere p item) :
    Everywhere p (.array items)
  | object {members : Fields Json} (here : p members)
    (inside : ∀ member ∈ members, Everywhere p member.2) : Everywhere p (.object members)

/-- Every object lists its members in strictly increasing order of the bytes of their names. -/
def InOrder : Json → Prop :=
  Everywhere fun members => members.Pairwise fun a b => Text.bytes a.1 < Text.bytes b.1

/-- No object has two members of one name. -/
def Distinct : Json → Prop := Everywhere fun members => members.names.Nodup

theorem Everywhere.of_array {p : Fields Json → Prop} {items : List Json}
    (h : Everywhere p (.array items)) : ∀ item ∈ items, Everywhere p item := by
  cases h with
  | array inside => exact inside

theorem Everywhere.of_object {p : Fields Json → Prop} {members : Fields Json}
    (h : Everywhere p (.object members)) :
    p members ∧ ∀ member ∈ members, Everywhere p member.2 := by
  cases h with
  | object here inside => exact ⟨here, inside⟩

/-! ### Reordered values -/

/-- Members of different names may be in any order. -/
theorem Reordered.of_perm {first second : Fields Json} (h : first.Perm second)
    (hnames : first.names.Nodup) : Reordered (object first) (object second) := by
  have go (front : Fields Json) :
      Reordered (object (front ++ first)) (object (front ++ second)) := by
    induction h generalizing front with
    | nil => exact .refl _
    | cons member _ ih =>
      have := ih (List.nodup_cons.1 hnames).2 (front ++ [member])
      rwa [List.append_assoc, List.append_assoc] at this
    | swap a b rest =>
      have hne : b.1 ≠ a.1 := fun heq => (List.nodup_cons.1 hnames).1 (List.mem_cons.2 (.inl heq))
      exact .swap front rest hne
    | trans h _ ih ih' => exact (ih hnames front).trans (ih' (Fields.nodup_of_perm h hnames) front)
  exact go []

/-- Every item may be reordered. -/
theorem Reordered.of_items {f : Json → Json} {items : List Json}
    (h : ∀ item ∈ items, Reordered item (f item)) :
    Reordered (array items) (array (items.map f)) := by
  have go (front : List Json) :
      Reordered (array (front ++ items)) (array (front ++ items.map f)) := by
    induction items generalizing front with
    | nil => exact .refl _
    | cons item rest ih =>
      have hrest := ih (fun item hin => h item (List.mem_cons_of_mem _ hin)) (front ++ [f item])
      rw [List.append_assoc, List.append_assoc] at hrest
      exact (Reordered.item front rest (h item List.mem_cons_self)).trans hrest
  exact go []

/-- Every member may be reordered. -/
theorem Reordered.of_members {f : Json → Json} {members : Fields Json}
    (h : ∀ member ∈ members, Reordered member.2 (f member.2)) :
    Reordered (object members) (object (members.map fun member => (member.1, f member.2))) := by
  have go (front : Fields Json) : Reordered (object (front ++ members))
      (object (front ++ members.map fun member => (member.1, f member.2))) := by
    induction members generalizing front with
    | nil => exact .refl _
    | cons member rest ih =>
      have hrest := ih (fun member hin => h member (List.mem_cons_of_mem _ hin))
        (front ++ [(member.1, f member.2)])
      rw [List.append_assoc, List.append_assoc] at hrest
      exact (Reordered.member front member.1 rest (h member List.mem_cons_self)).trans hrest
  exact go []

/-! ### Sorted members -/

theorem pairwise_sortedMembers (members : Fields Json) :
    (sortedMembers members).Pairwise (·.1 < ·.1) := by
  induction members with
  | nil => exact .nil
  | cons member rest ih => exact Fields.pairwise_putSorted ih _ _

/-- Members with the same sorted values under the same names become the same members. -/
theorem sortedMembers_congr {first second : Fields Json}
    (h : ∀ name, (first.get? name).map sorted = (second.get? name).map sorted) :
    sortedMembers first = sortedMembers second := by
  refine Fields.eq_of_get?_eq (pairwise_sortedMembers first) (pairwise_sortedMembers second) ?_
  intro name
  rw [get?_sortedMembers, get?_sortedMembers, h]

/-- A new name is put between the others. -/
theorem perm_putSorted {fields : Fields Json} {name : String} (h : name ∉ fields.names)
    (value : Json) : (fields.putSorted name value).Perm ((name, value) :: fields) := by
  induction fields with
  | nil => exact .refl _
  | cons field rest ih =>
    obtain ⟨hfirst, hrest⟩ := not_or.1 (mt List.mem_cons.2 h)
    rw [Fields.putSorted, if_neg (Ne.symm hfirst)]
    split
    · exact .refl _
    · exact ((ih hrest).cons field).trans (.swap _ _ _)

/-- No member is lost and none is doubled. -/
theorem perm_sortedMembers {members : Fields Json} (h : members.names.Nodup) :
    (sortedMembers members).Perm (members.map fun member => (member.1, sorted member.2)) := by
  induction members with
  | nil => exact .refl _
  | cons member rest ih =>
    obtain ⟨hfirst, hrest⟩ := List.nodup_cons.1 h
    have hperm := ih hrest
    have hnew : member.1 ∉ Fields.names (sortedMembers rest) := by
      have hnames : (Fields.names (sortedMembers rest)).Perm (Fields.names rest) := by
        simpa [Fields.names, Function.comp_def] using hperm.map Prod.fst
      exact fun hin => hfirst (hnames.mem_iff.1 hin)
    exact (perm_putSorted hnew _).trans (hperm.cons _)

/-- Every value of sorted members is the sorted one of a member of that name. -/
theorem mem_sortedMembers {members : Fields Json} {member : String × Json}
    (h : member ∈ sortedMembers members) : ∃ other ∈ members, member = (other.1, sorted other.2) := by
  induction members with
  | nil => exact absurd h List.not_mem_nil
  | cons first rest ih =>
    obtain rfl | hrest := Fields.mem_putSorted h
    · exact ⟨first, List.mem_cons_self, rfl⟩
    · obtain ⟨other, hin, heq⟩ := ih hrest
      exact ⟨other, List.mem_cons_of_mem _ hin, heq⟩

/-! ### Sorted values -/

/-- Sorting brings the members of all objects in order, at every depth. -/
theorem inOrder_sorted (json : Json) : InOrder json.sorted := by
  induction json using induct with
  | null => exact .null
  | bool b => exact .bool b
  | integer n => exact .integer n
  | real x => exact .real x
  | string s => exact .string s
  | array items ih =>
    refine .array fun item hin => ?_
    rw [sortedItems_eq_map] at hin
    obtain ⟨other, hother, rfl⟩ := List.mem_map.1 hin
    exact ih other hother
  | object members ih =>
    refine .object ((pairwise_sortedMembers members).imp Text.bytes_lt_bytes) fun member hin => ?_
    obtain ⟨other, hother, rfl⟩ := mem_sortedMembers hin
    exact ih other hother

/-- Sorting changes nothing but the order of members. -/
theorem reordered_sorted {json : Json} (h : Distinct json) : Reordered json json.sorted := by
  induction json using induct with
  | null | bool | integer | real | string => exact .refl _
  | array items ih =>
    rw [sorted, sortedItems_eq_map]
    exact .of_items fun item hin => ih item hin (h.of_array item hin)
  | object members ih =>
    obtain ⟨hnames, hinside⟩ := h.of_object
    have hvalues : Reordered (object members)
        (object (members.map fun member => (member.1, sorted member.2))) :=
      .of_members fun member hin => ih member hin (hinside member hin)
    have hperm := (perm_sortedMembers hnames).symm
    refine hvalues.trans (.of_perm hperm ?_)
    simpa [Fields.names, Function.comp_def] using hnames

/-- A sorted value is sorted already. -/
theorem sorted_sorted (json : Json) : json.sorted.sorted = json.sorted := by
  induction json using induct with
  | null | bool | integer | real | string => rfl
  | array items ih =>
    have hitems : (items.map sorted).map sorted = items.map sorted := by
      rw [List.map_map]
      exact List.map_congr_left ih
    rw [sorted, sortedItems_eq_map, sorted, sortedItems_eq_map, hitems]
  | object members ih =>
    refine congrArg object (sortedMembers_congr fun name => ?_)
    rw [get?_sortedMembers, Option.map_map]
    refine Option.map_congr fun json hin => ?_
    exact ih (name, json) (Fields.mem_of_get?_eq_some hin)

/-- Values that differ only in the order of members become the same value. -/
theorem Reordered.sorted_eq {first second : Json} (h : Reordered first second) :
    first.sorted = second.sorted := by
  induction h with
  | refl json => rfl
  | trans _ _ ih ih' => exact ih.trans ih'
  | swap front rest names =>
    exact congrArg object (sortedMembers_congr fun name => by rw [Fields.get?_swap names])
  | member front name rest _ ih =>
    refine congrArg object (sortedMembers_congr fun other => ?_)
    rw [Fields.get?_append, Fields.get?_append, Fields.get?_cons, Fields.get?_cons]
    cases Fields.get? front other with
    | some json => rfl
    | none =>
      split
      · exact congrArg some ih
      · rfl
  | item front rest _ ih =>
    rw [sorted, sorted, sortedItems_eq_map, sortedItems_eq_map, List.map_append, List.map_append,
      List.map_cons, List.map_cons, ih]

end Rulebook.Json
