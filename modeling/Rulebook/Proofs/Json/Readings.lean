import Mathlib
import Rulebook.Proofs.Configuration.Transcription
import Rulebook.Proofs.Decimal.Values

/-!
# When two readings of a JSON text agree

A text can be read as JSON has it, or with strings and names as they are written and with every integer
beyond 32 bits as a double. `Written.Reads` says of a JSON value that it is a reading of a structure,
`Same` that two JSON values are equal but for the order of members and the format of numbers. The two
readings are the same value if and only if nothing is lost by the second one: `Written.agrees`.
-/

namespace Rulebook.Json

open Written

/-! ### Equal values -/

/-- The number that a JSON number is. -/
def number? : Json → Option Extended
  | integer n => some (.ofRat n)
  | real x => Double.value x
  | _ => none

/-- Whether two JSON values have the same nesting, names and strings and equal numbers. -/
inductive Same : Json → Json → Prop where
  | null : Same null null
  | bool (b : Bool) : Same (bool b) (bool b)
  | number {a b : Json} {q : Extended} (first : a.number? = some q) (second : b.number? = some q) :
    Same a b
  | string (s : String) : Same (string s) (string s)
  | array {as bs : List Json} (length : as.length = bs.length)
    (items : ∀ (i : Nat) (a b : Json), as[i]? = some a → bs[i]? = some b → Same a b) :
    Same (array as) (array bs)
  | object {as bs : Fields Json} (has : ∀ name, as.has name = bs.has name)
    (members : ∀ (name : String) (a b : Json), as.get? name = some a → bs.get? name = some b →
      Same a b) : Same (object as) (object bs)

namespace Same

variable {as bs : List Json} {ms ns : Fields Json} {s t : String}

theorem string_iff : Same (.string s) (.string t) ↔ s = t := by
  constructor
  · intro h
    cases h with
    | number first => cases first
    | string => rfl
  · rintro rfl
    exact .string s

theorem array_iff : Same (.array as) (.array bs) ↔ as.length = bs.length ∧
    ∀ (i : Nat) (a b : Json), as[i]? = some a → bs[i]? = some b → Same a b := by
  constructor
  · intro h
    cases h with
    | number first => cases first
    | array length items => exact ⟨length, items⟩
  · exact fun ⟨length, items⟩ => .array length items

theorem object_iff : Same (.object ms) (.object ns) ↔ (∀ name, ms.has name = ns.has name) ∧
    ∀ (name : String) (a b : Json), ms.get? name = some a → ns.get? name = some b → Same a b := by
  constructor
  · intro h
    cases h with
    | number first => cases first
    | object has members => exact ⟨has, members⟩
  · exact fun ⟨has, members⟩ => .object has members

end Same

/-- Whether a function on JSON values keeps everything but the order of members and the numbers. -/
structure Rearranges (f : Json → Json) : Prop where
  null : f null = null
  bool : ∀ b, f (bool b) = bool b
  string : ∀ s, f (string s) = string s
  array : ∀ items, f (array items) = array (items.map f)
  object : ∀ members : Fields Json, ∃ found : Fields Json, f (object members) = object found ∧
    ∀ name, found.get? name = (members.get? name).map f

namespace Written

/-! ### Induction over structures -/

/-- The induction principle of structures. -/
@[elab_as_elim]
theorem induct {motive : Written → Prop} (null : motive null) (bool : ∀ b, motive (bool b))
    (numeral : ∀ n, motive (numeral n)) (string : ∀ inside, motive (string inside))
    (array : ∀ items, (∀ item ∈ items, motive item) → motive (array items))
    (object : ∀ members : List Member, (∀ member ∈ members, motive member.2.2) →
      motive (object members)) (tree : Written) : motive tree :=
  @Written.rec motive (fun items => ∀ item ∈ items, motive item)
    (fun members => ∀ member ∈ members, motive member.2.2) (fun member => motive member.2.2)
    (fun pair => motive pair.2) null bool numeral string array object (fun _ h => nomatch h)
    (fun _ _ first rest => List.forall_mem_cons.2 ⟨first, rest⟩) (fun _ h => nomatch h)
    (fun _ _ first rest => List.forall_mem_cons.2 ⟨first, rest⟩) (fun _ _ h => h) (fun _ _ h => h) tree

/-! ### Readings of a structure -/

variable {reading : List Char → Option (List Char)} {num num' : Numeral → Json → Prop}
  {exact : Numeral → Prop} {tree : Written} {members : List Member} {json a b : Json}

/-- Whether a JSON value is what a structure stands for, if string literals and names are read as
`reading` says and numerals as `num` says. Of several members with one name the last one counts. -/
inductive Reads (reading : List Char → Option (List Char)) (num : Numeral → Json → Prop) :
    Written → Json → Prop where
  | null : Reads reading num .null .null
  | bool (b : Bool) : Reads reading num (.bool b) (.bool b)
  | numeral {n : Numeral} {json : Json} (number : num n json) : Reads reading num (.numeral n) json
  | string {inside : Inside} {s : List Char} (read : reading inside.chars = some s) :
    Reads reading num (.string inside) (.string (String.ofList s))
  | array {items : List Written} {found : List Json} (length : items.length = found.length)
    (read : ∀ (i : Nat) (item : Written) (json : Json), items[i]? = some item →
      found[i]? = some json → Reads reading num item json) :
    Reads reading num (.array items) (.array found)
  | object {members : List Member} {found : Fields Json}
    (has : ∀ name, ((Written.object members).member? reading name).isSome = found.has name)
    (read : ∀ (name : String) (tree : Written) (json : Json),
      (Written.object members).member? reading name = some tree → found.get? name = some json →
        Reads reading num tree json) : Reads reading num (.object members) (.object found)

/-- Whether nothing is lost when strings and names are taken as they are written: there is no escape
among them, and the numerals are of a kind that is not changed. Members that are replaced by a later
one of their name do not count. -/
inductive Faithful (exact : Numeral → Prop) : Written → Prop where
  | null : Faithful exact .null
  | bool (b : Bool) : Faithful exact (.bool b)
  | numeral {n : Numeral} (number : exact n) : Faithful exact (.numeral n)
  | string {inside : Inside} (plain : '\\' ∉ inside.chars) : Faithful exact (.string inside)
  | array {items : List Written} (each : ∀ item ∈ items, Faithful exact item) :
    Faithful exact (.array items)
  | object {members : List Member} (names : (Written.object members).PlainNames)
    (values : ∀ (name : String) (tree : Written),
      (Written.object members).member? some name = some tree → Faithful exact tree) :
    Faithful exact (.object members)

theorem faithful_numeral_iff {n : Numeral} : Faithful exact (.numeral n) ↔ exact n :=
  ⟨fun h => by cases h; assumption, .numeral⟩

theorem faithful_string_iff {inside : Inside} : Faithful exact (.string inside) ↔ '\\' ∉ inside.chars :=
  ⟨fun h => by cases h; assumption, .string⟩

theorem faithful_array_iff {items : List Written} :
    Faithful exact (.array items) ↔ ∀ item ∈ items, Faithful exact item :=
  ⟨fun h => by cases h; assumption, .array⟩

theorem faithful_object_iff : Faithful exact (.object members) ↔
    (Written.object members).PlainNames ∧ ∀ (name : String) (tree : Written),
      (Written.object members).member? some name = some tree → Faithful exact tree := by
  constructor
  · intro h
    cases h with
    | object names values => exact ⟨names, values⟩
  · exact fun ⟨names, values⟩ => .object names values

/-- Items that are related one by one. -/
theorem Reads.of_forall₂ {R : Written → Json → Prop} {items : List Written} {found : List Json}
    (h : List.Forall₂ R items found)
    (hread : ∀ item ∈ items, ∀ {json : Json}, R item json → Reads reading num item json) :
    Reads reading num (.array items) (.array found) := by
  refine .array h.length_eq fun i item json hitem hjson => ?_
  obtain ⟨hi, rfl⟩ := List.getElem?_eq_some_iff.1 hitem
  obtain ⟨hi', rfl⟩ := List.getElem?_eq_some_iff.1 hjson
  exact hread _ (List.getElem_mem hi) (h.get hi hi')

/-- Fields that are related under every name. -/
theorem Reads.of_rel {found : Fields Json}
    (h : ∀ name, Option.Rel (Reads reading num) ((Written.object members).member? reading name)
      (Fields.get? found name)) : Reads reading num (.object members) (.object found) := by
  refine .object (fun name => ?_) fun name tree json htree hjson => ?_
  · have hname := h name
    rw [Fields.has]
    generalize (Written.object members).member? reading name = first at hname
    generalize found.get? name = second at hname
    cases hname <;> rfl
  · have hname := h name
    rw [htree, hjson] at hname
    cases hname
    assumption

/-- A member is found under a name if and only if there is one that is read as this name. -/
theorem isSome_member?_iff {name : String} :
    ((Written.object members).member? reading name).isSome = true ↔
      ∃ member ∈ members, reading member.1.chars = some name.toList := by
  rw [member?, Option.isSome_map, List.find?_isSome]
  simp only [List.mem_reverse, Member.isNamed, beq_iff_eq]
  rfl

theorem exists_member_of_member? {name : String}
    (h : (Written.object members).member? reading name = some tree) :
    ∃ member ∈ members, member.2.2 = tree := by
  obtain ⟨member, hfind, rfl⟩ := Option.map_eq_some_iff.1 h
  exact ⟨member, List.mem_reverse.1 (List.mem_of_find?_eq_some hfind), rfl⟩

/-- If the same names are found whether or not escapes are resolved, no name has an escape: a name that
has one is read from a longer one that has one. -/
theorem plainNames_of_isSome_eq
    (h : ∀ name, ((Written.object members).member? some name).isSome =
      ((Written.object members).member? decode name).isSome) :
    (Written.object members).PlainNames := by
  have hlonger : ∀ member ∈ members, '\\' ∈ member.1.chars → ∃ other ∈ members,
      '\\' ∈ other.1.chars ∧ member.1.chars.length < other.1.chars.length := by
    intro member hmember hslash
    have hfound := isSome_member?_iff.2 ⟨member, hmember, congrArg some String.toList_ofList.symm⟩
    rw [h] at hfound
    obtain ⟨other, hother, hdecode⟩ := isSome_member?_iff.1 hfound
    rw [String.toList_ofList] at hdecode
    have hescape : '\\' ∈ other.1.chars := by
      by_contra hplain
      rw [other.1.decode_eq_iff.2 hplain] at hdecode
      exact hplain (Option.some.inj hdecode ▸ hslash)
    exact ⟨other, hother, hescape, (decode_bounds hdecode).2.2 hescape⟩
  intro member hmember hslash
  -- One name with an escape leads to longer and longer ones, but the members are finitely many.
  have hgrow : ∀ n, ∃ other ∈ members, '\\' ∈ other.1.chars ∧ n ≤ other.1.chars.length := by
    intro n
    induction n with
    | zero => exact ⟨member, hmember, hslash, Nat.zero_le _⟩
    | succ n ih =>
      obtain ⟨other, hother, hescape, hle⟩ := ih
      obtain ⟨longer, hlonger, hescape', hlt⟩ := hlonger other hother hescape
      exact ⟨longer, hlonger, hescape', by omega⟩
  obtain ⟨other, hother, -, hlarge⟩ := hgrow ((members.map (·.1.chars.length)).sum + 1)
  have hle := List.single_le_sum (l := members.map (·.1.chars.length)) (fun _ _ => Nat.zero_le _) _
    (List.mem_map_of_mem hother)
  omega

theorem Reads.map {f : Json → Json} (hf : Rearranges f) (hnum : ∀ n json, num n json → num' n (f json))
    (h : Reads reading num tree json) : Reads reading num' tree (f json) := by
  induction h with
  | null =>
    rw [hf.null]
    exact .null
  | bool b =>
    rw [hf.bool]
    exact .bool b
  | numeral number => exact .numeral (hnum _ _ number)
  | string read =>
    rw [hf.string]
    exact .string read
  | @array items found length _ ih =>
    rw [hf.array]
    refine .array (length.trans (List.length_map f).symm) fun i item json' hitem hjson => ?_
    rw [List.getElem?_map] at hjson
    obtain ⟨json, hfound, rfl⟩ := Option.map_eq_some_iff.1 hjson
    exact ih i item json hitem hfound
  | @object members found has _ ih =>
    obtain ⟨found', heq, hget⟩ := hf.object found
    rw [heq]
    refine .object (fun name => ?_) fun name tree json' htree hjson => ?_
    · rw [has, Fields.has, Fields.has, hget, Option.isSome_map]
    · rw [hget] at hjson
      obtain ⟨json, hfound, rfl⟩ := Option.map_eq_some_iff.1 hjson
      exact ih name tree json htree hfound

/-! ### When readings agree -/

/-- Whether the readings of a structure are the same value if and only if nothing is lost. -/
def Agrees (num num' : Numeral → Json → Prop) (exact : Numeral → Prop) (tree : Written) : Prop :=
  ∀ {a b : Json}, Reads some num tree a → Reads decode num' tree b → (Same a b ↔ tree.Faithful exact)

theorem agrees_string (inside : Inside) : Agrees num num' exact (.string inside) := by
  intro a b h h'
  cases h with
  | string read =>
    cases h' with
    | string read' =>
      cases read
      rw [Same.string_iff, faithful_string_iff, ← inside.decode_eq_iff, read', Option.some_inj]
      exact ⟨fun heq => (String.ofList_injective heq).symm, fun heq => congrArg String.ofList heq.symm⟩

theorem agrees_array {items : List Written} (ih : ∀ item ∈ items, Agrees num num' exact item) :
    Agrees num num' exact (.array items) := by
  intro a b h h'
  cases h with
  | @array _ found length read =>
    cases h' with
    | @array _ found' length' read' =>
      rw [Same.array_iff, faithful_array_iff]
      constructor
      · rintro ⟨-, hsame⟩ item hitem
        obtain ⟨i, hi, rfl⟩ := List.mem_iff_getElem.1 hitem
        have hget := List.getElem?_eq_getElem hi
        have hfound := List.getElem?_eq_getElem (length ▸ hi)
        have hfound' := List.getElem?_eq_getElem (length' ▸ hi)
        exact (ih _ hitem (read i _ _ hget hfound) (read' i _ _ hget hfound')).1
          (hsame i _ _ hfound hfound')
      · intro hfaithful
        refine ⟨length.symm.trans length', fun i a b ha hb => ?_⟩
        obtain ⟨hi, -⟩ := List.getElem?_eq_some_iff.1 ha
        have hget := List.getElem?_eq_getElem (length.symm ▸ hi)
        have hitem := List.mem_of_getElem? hget
        exact (ih _ hitem (read i _ _ hget ha) (read' i _ _ hget hb)).2 (hfaithful _ hitem)

theorem agrees_object (ih : ∀ member ∈ members, Agrees num num' exact member.2.2) :
    Agrees num num' exact (.object members) := by
  intro a b h h'
  cases h with
  | @object _ found has read =>
    cases h' with
    | @object _ found' has' read' =>
      rw [Same.object_iff, faithful_object_iff]
      constructor
      · rintro ⟨hnames, hsame⟩
        -- Both readings find the same names, so a member is the same in both.
        have hplain : (Written.object members).PlainNames := plainNames_of_isSome_eq fun name => by
          rw [has, has', hnames]
        refine ⟨hplain, fun name tree htree => ?_⟩
        obtain ⟨member, hmember, rfl⟩ := exists_member_of_member? htree
        have htree' := (hplain.member?_decode name).trans htree
        obtain ⟨a, ha⟩ := Option.isSome_iff_exists.1
          ((has name).symm.trans (Option.isSome_of_eq_some htree))
        obtain ⟨b, hb⟩ := Option.isSome_iff_exists.1
          ((has' name).symm.trans (Option.isSome_of_eq_some htree'))
        exact (ih member hmember (read name _ _ htree ha) (read' name _ _ htree' hb)).1
          (hsame name a b ha hb)
      · rintro ⟨hplain, hfaithful⟩
        refine ⟨fun name => by rw [← has, ← has', hplain.member?_decode], fun name a b ha hb => ?_⟩
        obtain ⟨tree, htree⟩ := Option.isSome_iff_exists.1
          ((has name).trans (Option.isSome_of_eq_some ha))
        obtain ⟨member, hmember, rfl⟩ := exists_member_of_member? htree
        have htree' := (hplain.member?_decode name).trans htree
        exact (ih member hmember (read name _ _ htree ha) (read' name _ _ htree' hb)).2
          (hfaithful name _ htree)

/-- **Two readings of a structure, one with and one without escapes, are the same value if and only if
nothing is lost without.** -/
theorem agrees (hnum : ∀ n a b, num n a → num' n b → (Same a b ↔ exact n)) (tree : Written) :
    Agrees num num' exact tree := by
  induction tree using induct with
  | null =>
    intro a b h h'
    cases h
    cases h'
    exact iff_of_true .null .null
  | bool truth =>
    intro a b h h'
    cases h
    cases h'
    exact iff_of_true (.bool truth) (.bool truth)
  | numeral n =>
    intro a b h h'
    cases h with
    | numeral number =>
      cases h' with
      | numeral number' =>
        rw [hnum n a b number number', faithful_numeral_iff]
  | string inside => exact agrees_string inside
  | array items ih => exact agrees_array ih
  | object members ih => exact agrees_object ih

end Written
end Rulebook.Json
