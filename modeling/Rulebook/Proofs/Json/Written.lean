import Rulebook.Json.Section
import Rulebook.Proofs.Json.Scalars

/-!
# The structure of a JSON text

`Written` is a JSON text taken apart by the grammar of JSON, with everything as it is written: the
insides of string literals with their escapes, numerals digit by digit, and with each member of an
object the text of its value. `Denotes` says which text has which structure; there is at most one
(`Denotes.unique`). A reader that finds one member of a text knows the structure of the whole text:
`exists_denotes_of_memberText`.
-/

namespace Rulebook.Json

/-- The inside of a string literal, with well-formed escapes and without control characters. -/
@[ext]
structure Inside where
  chars : List Char
  wellFormed : isPlausible chars = true

/-- A JSON text, taken apart. -/
inductive Written where
  | null
  | bool (b : Bool)
  | numeral (n : Numeral)
  | string (inside : Inside)
  | array (items : List Written)
  /-- Each member has a name, the text of its value, and the value. -/
  | object (members : List (Inside × List Char × Written))

/-- A member of an object as it is written: its name, the text of its value, and the value. -/
abbrev Member := Inside × List Char × Written

mutual

/-- Whether a text begins with a value, and what follows it. -/
inductive Spells : List Char → Written → List Char → Prop where
  | null {s : List Char} : Spells ('n' :: 'u' :: 'l' :: 'l' :: s) .null s
  | boolTrue {s : List Char} : Spells ('t' :: 'r' :: 'u' :: 'e' :: s) (.bool true) s
  | boolFalse {s : List Char} : Spells ('f' :: 'a' :: 'l' :: 's' :: 'e' :: s) (.bool false) s
  | string {s after : List Char} {inside : Inside}
    (split : splitString s = some (inside.chars, after)) : Spells ('"' :: s) (.string inside) after
  | emptyArray {s after : List Char} (closed : skipSpace s = ']' :: after) :
    Spells ('[' :: s) (.array []) after
  | array {s after : List Char} {items : List Written} (spells : SpellsItems (skipSpace s) items after) :
    Spells ('[' :: s) (.array items) after
  | emptyObject {s after : List Char} (closed : skipSpace s = '\x7d' :: after) :
    Spells ('\x7b' :: s) (.object []) after
  | object {s after : List Char} {members : List Member}
    (spells : SpellsMembers (skipSpace s) members after) :
    Spells ('\x7b' :: s) (.object members) after
  | numeral {s after : List Char} {n : Numeral} (split : splitNumeral false s = some (n, after)) :
    Spells s (.numeral n) after

/-- Whether a text begins with the items of an array and its closing bracket, and what follows. -/
inductive SpellsItems : List Char → List Written → List Char → Prop where
  | last {s rest after : List Char} {item : Written} (spells : Spells s item rest)
    (closed : skipSpace rest = ']' :: after) : SpellsItems s [item] after
  | more {s rest next after : List Char} {item : Written} {items : List Written}
    (spells : Spells s item rest) (comma : skipSpace rest = ',' :: next)
    (others : SpellsItems (skipSpace next) items after) : SpellsItems s (item :: items) after

/-- Whether a text begins with a member of an object, and what follows. -/
inductive SpellsMember : List Char → Member → List Char → Prop where
  | mk {s colon rest after source : List Char} {name : Inside} {value : Written}
    (split : splitString s = some (name.chars, colon)) (mark : skipSpace colon = ':' :: rest)
    (spells : Spells (skipSpace rest) value after) (written : skipSpace rest = source ++ after) :
    SpellsMember ('"' :: s) (name, source, value) after

/-- Whether a text begins with the members of an object and its closing brace, and what follows. -/
inductive SpellsMembers : List Char → List Member → List Char → Prop where
  | last {s rest after : List Char} {member : Member} (spells : SpellsMember s member rest)
    (closed : skipSpace rest = '\x7d' :: after) : SpellsMembers s [member] after
  | more {s rest next after : List Char} {member : Member} {members : List Member}
    (spells : SpellsMember s member rest) (comma : skipSpace rest = ',' :: next)
    (others : SpellsMembers (skipSpace next) members after) :
    SpellsMembers s (member :: members) after

end

/-- Whether a text has a structure. -/
def Denotes (text : String) (tree : Written) : Prop :=
  ∃ rest, Spells (skipSpace text.toList) tree rest ∧ skipSpace rest = []

variable {s rest after : List Char}

/-! ### Inversion -/

namespace Spells

variable {tree : Written}

theorem ne_numeral {bare : Bool} {c : Char} {n : Numeral} (hc : isNumeralPart c = false) :
    splitNumeral bare (c :: s) ≠ some (n, after) := by
  intro h
  obtain ⟨d, tail, heq, hd⟩ := exists_cons_of_splitNumeral h
  cases heq
  rw [hc] at hd
  cases hd

theorem eq_null (h : Spells ('n' :: s) tree after) : tree = .null ∧ s = 'u' :: 'l' :: 'l' :: after := by
  cases h with
  | null => exact ⟨rfl, rfl⟩
  | numeral split => exact absurd split (ne_numeral rfl)

theorem eq_true (h : Spells ('t' :: s) tree after) :
    tree = .bool true ∧ s = 'r' :: 'u' :: 'e' :: after := by
  cases h with
  | boolTrue => exact ⟨rfl, rfl⟩
  | numeral split => exact absurd split (ne_numeral rfl)

theorem eq_false (h : Spells ('f' :: s) tree after) :
    tree = .bool false ∧ s = 'a' :: 'l' :: 's' :: 'e' :: after := by
  cases h with
  | boolFalse => exact ⟨rfl, rfl⟩
  | numeral split => exact absurd split (ne_numeral rfl)

theorem exists_string (h : Spells ('"' :: s) tree after) :
    ∃ inside : Inside, tree = .string inside ∧ splitString s = some (inside.chars, after) := by
  cases h with
  | string split => exact ⟨_, rfl, split⟩
  | numeral split => exact absurd split (ne_numeral rfl)

theorem exists_array (h : Spells ('[' :: s) tree after) :
    tree = .array [] ∧ skipSpace s = ']' :: after ∨
      ∃ items, tree = .array items ∧ SpellsItems (skipSpace s) items after := by
  cases h with
  | emptyArray closed => exact .inl ⟨rfl, closed⟩
  | array spells => exact .inr ⟨_, rfl, spells⟩
  | numeral split => exact absurd split (ne_numeral rfl)

theorem exists_object (h : Spells ('\x7b' :: s) tree after) :
    tree = .object [] ∧ skipSpace s = '\x7d' :: after ∨
      ∃ members, tree = .object members ∧ SpellsMembers (skipSpace s) members after := by
  cases h with
  | emptyObject closed => exact .inl ⟨rfl, closed⟩
  | object spells => exact .inr ⟨_, rfl, spells⟩
  | numeral split => exact absurd split (ne_numeral rfl)

/-- What begins like a numeral is one. -/
theorem eq_numeral {bare : Bool} {n : Numeral} (hsplit : splitNumeral bare s = some (n, rest))
    (h : Spells s tree after) : tree = .numeral n ∧ after = rest := by
  cases h with
  | numeral split =>
    have hbare := splitNumeral_of_strict bare split
    rw [hsplit] at hbare
    cases hbare
    exact ⟨rfl, rfl⟩
  | _ => exact absurd hsplit (ne_numeral rfl)

/-- No value begins with a closing bracket. -/
theorem not_closing {c : Char} (hc : c = ']' ∨ c = '\x7d') : ¬ Spells (c :: s) tree after := by
  intro h
  rcases hc with rfl | rfl <;>
  · cases h with
    | numeral split => exact absurd split (ne_numeral rfl)

end Spells

theorem SpellsItems.not_closing {items : List Written} : ¬ SpellsItems (']' :: s) items after := by
  intro h
  cases h with
  | last spells => exact spells.not_closing (.inl rfl)
  | more spells => exact spells.not_closing (.inl rfl)

theorem SpellsMembers.not_closing {members : List Member} :
    ¬ SpellsMembers ('\x7d' :: s) members after := by
  intro h
  cases h with
  | last spells => cases spells
  | more spells => cases spells

/-! ### A text has one structure -/

mutual

theorem Spells.unique : ∀ {s after after' : List Char} {tree tree' : Written},
    Spells s tree after → Spells s tree' after' → tree = tree' ∧ after = after'
  | _, _, _, _, _, .null, h => by
    obtain ⟨rfl, heq⟩ := h.eq_null
    cases heq
    exact ⟨rfl, rfl⟩
  | _, _, _, _, _, .boolTrue, h => by
    obtain ⟨rfl, heq⟩ := h.eq_true
    cases heq
    exact ⟨rfl, rfl⟩
  | _, _, _, _, _, .boolFalse, h => by
    obtain ⟨rfl, heq⟩ := h.eq_false
    cases heq
    exact ⟨rfl, rfl⟩
  | _, _, _, _, _, .string split, h => by
    obtain ⟨inside, rfl, split'⟩ := h.exists_string
    rw [split] at split'
    obtain ⟨hchars, rfl⟩ := Prod.mk.inj (Option.some.inj split')
    rw [Inside.ext hchars]
    exact ⟨rfl, rfl⟩
  | _, _, _, _, _, .emptyArray closed, h => by
    rcases h.exists_array with ⟨rfl, closed'⟩ | ⟨items, rfl, spells⟩
    · rw [closed] at closed'
      cases closed'
      exact ⟨rfl, rfl⟩
    · rw [closed] at spells
      exact absurd spells SpellsItems.not_closing
  | _, _, _, _, _, .array spells, h => by
    rcases h.exists_array with ⟨rfl, closed⟩ | ⟨items, rfl, spells'⟩
    · rw [closed] at spells
      exact absurd spells SpellsItems.not_closing
    · obtain ⟨rfl, rfl⟩ := spells.unique spells'
      exact ⟨rfl, rfl⟩
  | _, _, _, _, _, .emptyObject closed, h => by
    rcases h.exists_object with ⟨rfl, closed'⟩ | ⟨items, rfl, spells⟩
    · rw [closed] at closed'
      cases closed'
      exact ⟨rfl, rfl⟩
    · rw [closed] at spells
      exact absurd spells SpellsMembers.not_closing
  | _, _, _, _, _, .object spells, h => by
    rcases h.exists_object with ⟨rfl, closed⟩ | ⟨items, rfl, spells'⟩
    · rw [closed] at spells
      exact absurd spells SpellsMembers.not_closing
    · obtain ⟨rfl, rfl⟩ := spells.unique spells'
      exact ⟨rfl, rfl⟩
  | _, _, _, _, _, .numeral split, h => by
    obtain ⟨htree, hafter⟩ := h.eq_numeral split
    exact ⟨htree.symm, hafter.symm⟩

theorem SpellsItems.unique : ∀ {s after after' : List Char} {items items' : List Written},
    SpellsItems s items after → SpellsItems s items' after' → items = items' ∧ after = after'
  | _, _, _, _, _, .last spells closed, h => by
    cases h with
    | last spells' closed' =>
      obtain ⟨rfl, rfl⟩ := spells.unique spells'
      rw [closed] at closed'
      cases closed'
      exact ⟨rfl, rfl⟩
    | more spells' comma' _ =>
      obtain ⟨rfl, rfl⟩ := spells.unique spells'
      rw [closed] at comma'
      cases comma'
  | _, _, _, _, _, .more spells comma others, h => by
    cases h with
    | last spells' closed' =>
      obtain ⟨rfl, rfl⟩ := spells.unique spells'
      rw [comma] at closed'
      cases closed'
    | more spells' comma' others' =>
      obtain ⟨rfl, rfl⟩ := spells.unique spells'
      rw [comma] at comma'
      cases comma'
      obtain ⟨rfl, rfl⟩ := others.unique others'
      exact ⟨rfl, rfl⟩

theorem SpellsMember.unique : ∀ {s after after' : List Char} {member member' : Member},
    SpellsMember s member after → SpellsMember s member' after' →
      member = member' ∧ after = after'
  | _, _, _, _, _, .mk split mark spells written, .mk split' mark' spells' written' => by
    rw [split] at split'
    obtain ⟨hchars, rfl⟩ := Prod.mk.inj (Option.some.inj split')
    rw [mark] at mark'
    cases mark'
    obtain ⟨rfl, rfl⟩ := spells.unique spells'
    rw [Inside.ext hchars, List.append_cancel_right (written.symm.trans written')]
    exact ⟨rfl, rfl⟩

theorem SpellsMembers.unique : ∀ {s after after' : List Char} {members members' : List Member},
    SpellsMembers s members after → SpellsMembers s members' after' →
      members = members' ∧ after = after'
  | _, _, _, _, _, .last spells closed, h => by
    cases h with
    | last spells' closed' =>
      obtain ⟨rfl, rfl⟩ := spells.unique spells'
      rw [closed] at closed'
      cases closed'
      exact ⟨rfl, rfl⟩
    | more spells' comma' _ =>
      obtain ⟨rfl, rfl⟩ := spells.unique spells'
      rw [closed] at comma'
      cases comma'
  | _, _, _, _, _, .more spells comma others, h => by
    cases h with
    | last spells' closed' =>
      obtain ⟨rfl, rfl⟩ := spells.unique spells'
      rw [comma] at closed'
      cases closed'
    | more spells' comma' others' =>
      obtain ⟨rfl, rfl⟩ := spells.unique spells'
      rw [comma] at comma'
      cases comma'
      obtain ⟨rfl, rfl⟩ := others.unique others'
      exact ⟨rfl, rfl⟩

end

theorem Denotes.unique {text : String} {tree tree' : Written} (h : Denotes text tree)
    (h' : Denotes text tree') : tree = tree' := by
  obtain ⟨rest, hspells, -⟩ := h
  obtain ⟨rest', hspells', -⟩ := h'
  exact (hspells.unique hspells').1

/-! ### Readers that skip values -/

theorem skipSpace_skipSpace (s : List Char) : skipSpace (skipSpace s) = skipSpace s := by
  induction s with
  | nil => rfl
  | cons c s ih =>
    by_cases hc : isSpace c
    · have hskip : skipSpace (c :: s) = skipSpace s := List.dropWhile_cons_of_pos hc
      rw [hskip, ih]
    · have hskip : skipSpace (c :: s) = c :: s := List.dropWhile_cons_of_neg hc
      rw [hskip, hskip]

theorem skipSpace_suffix (s : List Char) : skipSpace s <:+ s := List.dropWhile_suffix _

theorem splitString_suffix {inside : List Char} (h : splitString s = some (inside, after)) :
    after <:+ s := by
  induction s using splitString.induct generalizing inside with
  | case1 => cases h
  | case2 rest =>
    cases h
    exact List.suffix_cons _ _
  | case3 c rest ih =>
    obtain ⟨⟨found, left⟩, hfound, heq⟩ := Option.bind_eq_some_iff.1 h
    cases heq
    exact (ih hfound).trans ((List.suffix_cons _ _).trans (List.suffix_cons _ _))
  | case4 c rest hquote hslash ih =>
    rw [splitString] at h
    · obtain ⟨⟨found, left⟩, hfound, heq⟩ := Option.bind_eq_some_iff.1 h
      cases heq
      exact (ih hfound).trans (List.suffix_cons _ _)
    · exact hquote
    · exact hslash

theorem exists_inside_of_skipString (h : skipString s = some after) :
    ∃ inside : Inside, splitString s = some (inside.chars, after) := by
  obtain ⟨⟨inside, left⟩, hsplit, h⟩ := Option.bind_eq_some_iff.1 h
  obtain ⟨hformed, h⟩ := Option.ite_none_right_eq_some.1 h
  cases h
  exact ⟨⟨inside, hformed⟩, hsplit⟩

/-- What is skipped with some fuel has a structure. -/
structure Skips (fuel : Nat) : Prop where
  value : ∀ {s after : List Char}, skipValue fuel s = some after →
    after <:+ skipSpace s ∧ ∃ tree, Spells (skipSpace s) tree after
  items : ∀ {s after : List Char}, skipItems fuel s = some after →
    after <:+ skipSpace s ∧ ∃ items, SpellsItems (skipSpace s) items after
  members : ∀ {s after : List Char}, skipMembers fuel s = some after →
    after <:+ skipSpace s ∧ ∃ members, SpellsMembers (skipSpace s) members after

/-- What stands behind blanks is further on in a text. -/
theorem suffix_of_skipSpace_eq {c : Char} (h : skipSpace s = c :: after) : after <:+ s :=
  (List.suffix_cons c after).trans (h ▸ skipSpace_suffix s)

namespace Skips

variable {fuel : Nat}

theorem value_succ (h : Skips fuel) (hskip : skipValue (fuel + 1) s = some after) :
    after <:+ skipSpace s ∧ ∃ tree, Spells (skipSpace s) tree after := by
  rw [skipValue] at hskip
  generalize skipSpace s = s at hskip
  split at hskip
  · cases hskip
    exact ⟨⟨['n', 'u', 'l', 'l'], rfl⟩, _, .null⟩
  · cases hskip
    exact ⟨⟨['t', 'r', 'u', 'e'], rfl⟩, _, .boolTrue⟩
  · cases hskip
    exact ⟨⟨['f', 'a', 'l', 's', 'e'], rfl⟩, _, .boolFalse⟩
  · obtain ⟨inside, hsplit⟩ := exists_inside_of_skipString hskip
    exact ⟨(splitString_suffix hsplit).trans (List.suffix_cons _ _), _, .string hsplit⟩
  · rename_i rest
    split at hskip
    · rename_i hclosed
      cases hskip
      exact ⟨(suffix_of_skipSpace_eq hclosed).trans (List.suffix_cons _ _), _, .emptyArray hclosed⟩
    · obtain ⟨hsuffix, items, hitems⟩ := h.items hskip
      rw [skipSpace_skipSpace] at hsuffix hitems
      exact ⟨(hsuffix.trans (skipSpace_suffix rest)).trans (List.suffix_cons _ _), _,
        .array hitems⟩
  · rename_i rest
    split at hskip
    · rename_i hclosed
      cases hskip
      exact ⟨(suffix_of_skipSpace_eq hclosed).trans (List.suffix_cons _ _), _, .emptyObject hclosed⟩
    · obtain ⟨hsuffix, members, hmembers⟩ := h.members hskip
      rw [skipSpace_skipSpace] at hsuffix hmembers
      exact ⟨(hsuffix.trans (skipSpace_suffix rest)).trans (List.suffix_cons _ _), _,
        .object hmembers⟩
  · obtain ⟨⟨n, left⟩, hsplit, heq⟩ := Option.map_eq_some_iff.1 hskip
    cases heq
    exact ⟨splitNumeral_suffix hsplit, _, .numeral hsplit⟩

theorem items_succ (h : Skips fuel) (hskip : skipItems (fuel + 1) s = some after) :
    after <:+ skipSpace s ∧ ∃ items, SpellsItems (skipSpace s) items after := by
  rw [skipItems] at hskip
  obtain ⟨rest, hvalue, hskip⟩ := Option.bind_eq_some_iff.1 hskip
  obtain ⟨hsuffix, tree, htree⟩ := h.value hvalue
  split at hskip
  · rename_i next hcomma
    obtain ⟨hnext, items, hitems⟩ := h.items hskip
    exact ⟨((hnext.trans (skipSpace_suffix next)).trans (suffix_of_skipSpace_eq hcomma)).trans
      hsuffix, _, .more htree hcomma hitems⟩
  · rename_i hclosed
    cases hskip
    exact ⟨(suffix_of_skipSpace_eq hclosed).trans hsuffix, _, .last htree hclosed⟩
  · cases hskip

theorem members_succ (h : Skips fuel) (hskip : skipMembers (fuel + 1) s = some after) :
    after <:+ skipSpace s ∧ ∃ members, SpellsMembers (skipSpace s) members after := by
  rw [skipMembers] at hskip
  generalize skipSpace s = s at hskip
  split at hskip
  · obtain ⟨colon, hname, hskip⟩ := Option.bind_eq_some_iff.1 hskip
    obtain ⟨name, hname⟩ := exists_inside_of_skipString hname
    split at hskip
    · rename_i value hmark
      obtain ⟨rest, hvalue, hskip⟩ := Option.bind_eq_some_iff.1 hskip
      obtain ⟨hsuffix, tree, htree⟩ := h.value hvalue
      have hrest := (hsuffix.trans (skipSpace_suffix value)).trans ((suffix_of_skipSpace_eq hmark).trans
          ((splitString_suffix hname).trans (List.suffix_cons '"' _)))
      obtain ⟨source, hsource⟩ := hsuffix
      have hmember := SpellsMember.mk hname hmark htree hsource.symm
      split at hskip
      · rename_i next hcomma
        obtain ⟨hnext, members, hmembers⟩ := h.members hskip
        exact ⟨((hnext.trans (skipSpace_suffix next)).trans (suffix_of_skipSpace_eq hcomma)).trans
          hrest, _, .more hmember hcomma hmembers⟩
      · rename_i hclosed
        cases hskip
        exact ⟨(suffix_of_skipSpace_eq hclosed).trans hrest, _, .last hmember hclosed⟩
      · cases hskip
    · cases hskip
  · cases hskip

end Skips

theorem skips (fuel : Nat) : Skips fuel := by
  induction fuel with
  | zero =>
    constructor <;>
    · intro s after h
      cases h
  | succ fuel ih => exact ⟨ih.value_succ, ih.items_succ, ih.members_succ⟩

/-! ### One member of a text -/

/-- Whether a member has a name, under a reading of the names. -/
def Member.isNamed (reading : List Char → Option (List Char)) (name : String) (member : Member) :
    Bool :=
  reading member.1.chars == some name.toList

/-- The text of the value of a member, unless the value is missing. -/
def Member.text? : Member → Option String
  | (_, _, .null) => none
  | (_, source, _) => some (String.ofList source)

/-- A value that is read as one that may be missing. -/
theorem exists_of_optionalText {value : Option String} (h : optionalText s = some (value, after)) :
    ∃ source tree, Spells (skipSpace s) tree after ∧ skipSpace s = source ++ after ∧
      ∀ name, value = Member.text? (name, source, tree) := by
  have hidem := skipSpace_skipSpace s
  unfold optionalText at h
  generalize skipSpace s = s at h hidem ⊢
  split at h
  · split at h
    · cases h
      exact ⟨['n', 'u', 'l', 'l'], _, .null, rfl, fun _ => rfl⟩
    · cases h
  · rename_i hn
    obtain ⟨left, hskip, heq⟩ := Option.bind_eq_some_iff.1 h
    cases heq
    obtain ⟨⟨source, hsource⟩, tree, htree⟩ := (skips _).value hskip
    rw [hidem] at hsource htree
    refine ⟨source, tree, htree, hsource.symm, fun name => ?_⟩
    have hnull : tree ≠ .null := by
      rintro rfl
      cases htree
      exact hn _ rfl
    have htake : s.take (s.length - after.length) = source := by
      rw [← hsource, List.length_append, Nat.add_sub_cancel, List.take_left]
    rw [htake, Member.text?]
    exact hnull

/-- What is decoded begins with an escape or with a character that stands for itself. -/
theorem decode_cases {decoded : List Char} (h : decode s = some decoded) :
    s = [] ∧ decoded = [] ∨
    (∃ escape rest c t, s = '\\' :: escape ++ rest ∧ escape ≠ [] ∧ decoded = c :: t ∧
      decode rest = some t ∧ isPlausible s = isPlausible rest) ∨
    ∃ c rest t, s = c :: rest ∧ c ≠ '\\' ∧ decoded = c :: t ∧ decode rest = some t ∧
      isPlausible s = isPlausible rest := by
  unfold decode at h
  split at h
  · cases h
    exact .inl ⟨rfl, rfl⟩
  · rename_i a b c d rest
    refine .inr (.inl ?_)
    -- the first half of a pair needs the second; any other word stands alone
    obtain ⟨high, hhigh, h⟩ := Option.bind_eq_some_iff.1 h
    split at h
    · split at h
      · rename_i a' b' c' d' rest _
        obtain ⟨low, hlow, h⟩ := Option.bind_eq_some_iff.1 h
        split at h
        · obtain ⟨t, ht, h⟩ := Option.bind_eq_some_iff.1 h
          cases h
          refine ⟨['u', a, b, c, d, '\\', 'u', a', b', c', d'], rest, _, t, rfl, by simp, rfl, ht, ?_⟩
          rw [isPlausible, isPlausible, hhigh, hlow]
          rfl
        · cases h
      · cases h
    · split at h
      · cases h
      · obtain ⟨t, ht, h⟩ := Option.bind_eq_some_iff.1 h
        cases h
        refine ⟨['u', a, b, c, d], rest, _, t, rfl, by simp, rfl, ht, ?_⟩
        rw [isPlausible, hhigh]
        rfl
  · rename_i c rest hu
    refine .inr (.inl ?_)
    obtain ⟨e, he, h⟩ := Option.bind_eq_some_iff.1 h
    obtain ⟨t, ht, h⟩ := Option.bind_eq_some_iff.1 h
    cases h
    refine ⟨[c], rest, _, t, rfl, by simp, rfl, ht, ?_⟩
    rw [isPlausible, he]
    · rfl
    · exact hu
  · cases h
  · rename_i c rest hu hescape hend
    refine .inr (.inr ?_)
    split at h
    · cases h
    · rename_i hcontrol
      obtain ⟨t, ht, h⟩ := Option.bind_eq_some_iff.1 h
      cases h
      -- an escape would have been found by the cases above
      have hslash : c ≠ '\\' := by
        rintro rfl
        cases rest with
        | nil => exact hend rfl rfl
        | cons d rest => exact hescape d rest rfl rfl
      refine ⟨c, rest, t, rfl, hslash, rfl, ht, ?_⟩
      rw [isPlausible, decide_eq_true (by omega)]
      · rfl
      · exact fun _ _ _ _ _ h => absurd h hslash
      · exact fun _ _ h => absurd h hslash
      · exact fun h => absurd h hslash

/-- What is decoded has well-formed escapes, and is shorter than it is written if it has any. -/
theorem decode_bounds {decoded : List Char} (h : decode s = some decoded) :
    isPlausible s = true ∧ decoded.length ≤ s.length ∧
      ('\\' ∈ s → decoded.length < s.length) := by
  induction hn : s.length using Nat.strongRecOn generalizing s decoded with
  | _ n ih =>
    subst hn
    rcases decode_cases h with ⟨rfl, rfl⟩ | ⟨escape, rest, c, t, rfl, hescape, rfl, ht, hformed⟩ |
      ⟨c, rest, t, rfl, hslash, rfl, ht, hformed⟩
    · exact ⟨rfl, Nat.le_refl _, fun h => absurd h List.not_mem_nil⟩
    · have hpos := List.length_pos_iff.2 hescape
      have hlength : ('\\' :: escape ++ rest).length = escape.length + rest.length + 1 := by
        rw [List.length_append, List.length_cons]
        omega
      obtain ⟨hrest, hle, -⟩ := ih rest.length (by omega) ht rfl
      rw [hformed, List.length_cons]
      exact ⟨hrest, by omega, fun _ => by omega⟩
    · obtain ⟨hrest, hle, hlt⟩ := ih rest.length (Nat.lt_succ_self _) ht rfl
      rw [hformed, List.length_cons, List.length_cons]
      refine ⟨hrest, by omega, fun hmem => ?_⟩
      have := hlt ((List.mem_cons.1 hmem).resolve_left (Ne.symm hslash))
      omega

theorem decode_of_plain (hformed : isPlausible s = true) (h : '\\' ∉ s) : decode s = some s := by
  induction s with
  | nil => rfl
  | cons c s ih =>
    have hslash : c ≠ '\\' := fun hc => h (hc ▸ List.mem_cons_self)
    rw [isPlausible, Bool.and_eq_true, decide_eq_true_eq] at hformed
    · rw [decode, if_neg (by omega), ih hformed.2 fun hs => h (List.mem_cons_of_mem _ hs)]
      · rfl
      · exact fun _ _ _ _ _ h => absurd h hslash
      · exact fun _ _ h => absurd h hslash
      · exact fun h => absurd h hslash
    · exact fun _ _ _ _ _ h => absurd h hslash
    · exact fun _ _ h => absurd h hslash
    · exact fun h => absurd h hslash

/-- A string literal stands for its inside if and only if there is no backslash in it. -/
theorem Inside.decode_eq_iff (inside : Inside) :
    decode inside.chars = some inside.chars ↔ '\\' ∉ inside.chars := by
  constructor
  · intro h hslash
    exact absurd ((decode_bounds h).2.2 hslash) (Nat.lt_irrefl _)
  · exact decode_of_plain inside.wellFormed

/-- The search for a member goes on behind a value. -/
def findNext (wanted : String) (fuel : Nat) (found : Found) (s : List Char) :
    Option (Found × List Char) :=
  match skipSpace s with
  | ',' :: rest => findMember wanted fuel found rest
  | '\x7d' :: after => some (found, after)
  | _ => none

/-- What is gone through once the value of the first member was looked at, if the same holds of the
members after it. -/
theorem exists_of_findNext {wanted : String} {fuel : Nat} {found found₁ found' : Found}
    {first left : List Char} {member : Member} (hmember : SpellsMember first member left)
    (hfound : found₁.toList =
      found.toList ++ ([member].filter (Member.isNamed decode wanted)).map Member.text?)
    (hothers : ∀ {next : List Char}, findMember wanted fuel found₁ next = some (found', after) →
      ∃ members, SpellsMembers (skipSpace next) members after ∧ found'.toList =
        found₁.toList ++ (members.filter (Member.isNamed decode wanted)).map Member.text?)
    (h : findNext wanted fuel found₁ left = some (found', after)) :
    ∃ members, SpellsMembers first members after ∧ found'.toList =
      found.toList ++ (members.filter (Member.isNamed decode wanted)).map Member.text? := by
  unfold findNext at h
  split at h
  · rename_i next hcomma
    obtain ⟨members, hmembers, hfound'⟩ := hothers h
    refine ⟨_, .more hmember hcomma hmembers, ?_⟩
    rw [hfound', hfound, List.append_assoc, ← List.map_append, ← List.filter_append]
    rfl
  · rename_i hclosed
    cases h
    exact ⟨_, .last hmember hclosed, hfound⟩
  · cases h

/-- The members that are gone through while one is looked for. -/
theorem exists_of_findMember {wanted : String} {fuel : Nat} {found found' : Found}
    (h : findMember wanted fuel found s = some (found', after)) :
    ∃ members, SpellsMembers (skipSpace s) members after ∧
      found'.toList = found.toList ++
        (members.filter (Member.isNamed decode wanted)).map Member.text? := by
  induction fuel generalizing found s with
  | zero => cases h
  | succ fuel ih =>
    rw [findMember] at h
    generalize skipSpace s = s at h
    split at h
    · rename_i rest
      obtain ⟨⟨inside, colon⟩, hname, h⟩ := Option.bind_eq_some_iff.1 h
      obtain ⟨decoded, hdecode, h⟩ := Option.bind_eq_some_iff.1 h
      dsimp only at h
      split at h
      · rename_i value hmark
        let name : Inside := ⟨inside, (decode_bounds hdecode).1⟩
        split at h
        · rename_i hwanted
          split at h
          · cases h
          · rename_i hnone
            obtain ⟨⟨found₁, left⟩, hvalue, h⟩ := Option.bind_eq_some_iff.1 h
            obtain ⟨⟨text, left⟩, hoptional, heq⟩ := Option.map_eq_some_iff.1 hvalue
            cases heq
            obtain ⟨source, tree, htree, hsource, htext⟩ := exists_of_optionalText hoptional
            have hmember : SpellsMember ('"' :: rest) (name, source, tree) left :=
              .mk hname hmark htree hsource
            refine exists_of_findNext hmember ?_ ih h
            rw [Bool.not_eq_true, Option.isSome_eq_false_iff, Option.isNone_iff_eq_none] at hnone
            have hnamed : Member.isNamed decode wanted (name, source, tree) = true := by
              rw [Member.isNamed, hdecode, ← hwanted, String.toList_ofList]
              exact beq_self_eq_true _
            rw [hnone, List.filter_cons_of_pos hnamed, htext name]
            rfl
        · rename_i hother
          obtain ⟨⟨found₁, left⟩, hvalue, h⟩ := Option.bind_eq_some_iff.1 h
          obtain ⟨left, hskip, heq⟩ := Option.map_eq_some_iff.1 hvalue
          cases heq
          obtain ⟨⟨source, hsource⟩, tree, htree⟩ := (skips _).value hskip
          have hmember : SpellsMember ('"' :: rest) (name, source, tree) left :=
            .mk hname hmark htree hsource.symm
          refine exists_of_findNext hmember ?_ ih h
          have hunnamed : ¬ Member.isNamed decode wanted (name, source, tree) = true := by
            rw [Member.isNamed, hdecode, beq_iff_eq]
            intro heq
            rw [Option.some.inj heq, String.ofList_toList] at hother
            exact hother rfl
          rw [List.filter_cons_of_neg hunnamed]
          exact (List.append_nil _).symm
      · cases h
    · cases h

/-- The members of an object. -/
def Written.members : Written → List Member
  | object members => members
  | _ => []

/-- The text of the value of a member of an object, unless it is missing. -/
def Written.textOf? (tree : Written) (name : String) : Option String :=
  (tree.members.find? (Member.isNamed decode name)).bind Member.text?

/-- Whether a text is the only one that a search for a member can come to. -/
structure Written.Yields (tree : Written) (name : String) (found : Option String) : Prop where
  unique : (tree.members.filter (Member.isNamed decode name)).length ≤ 1
  found_eq : found = tree.textOf? name

theorem Written.Yields.of_toList {members : List Member} {wanted : String} {found : Found}
    (h : found.toList = (members.filter (Member.isNamed decode wanted)).map Member.text?) :
    (Written.object members).Yields wanted found.join := by
  have hfind : members.find? (Member.isNamed decode wanted) =
      (members.filter (Member.isNamed decode wanted)).head? := List.head?_filter.symm
  have hlength : (members.filter (Member.isNamed decode wanted)).length ≤ 1 := by
    rw [← List.length_map (f := Member.text?), ← h]
    cases found with
    | none => exact Nat.zero_le _
    | some text => exact Nat.le_refl _
  refine ⟨hlength, ?_⟩
  show _ = (members.find? _).bind Member.text?
  rw [hfind]
  generalize members.filter (Member.isNamed decode wanted) = named at h hlength
  cases named with
  | nil =>
    cases found with
    | none => rfl
    | some text => cases h
  | cons member rest =>
    cases found with
    | none => cases h
    | some text =>
      rw [(List.cons.inj h).1]
      rfl

/-- A text in which one member is looked for has a structure. Of an object, at most one member has the
name, and it is the one that is found. -/
theorem exists_denotes_of_memberText {wanted text : String} {found : Option String}
    (h : memberText wanted text = some found) : ∃ tree, Denotes text tree ∧
      ((∃ members, tree = .object members) → tree.Yields wanted found) := by
  -- nothing but space follows the value
  have hdenotes {tree : Written} {rest : List Char} {text' : Option String}
      (hspells : Spells (skipSpace text.toList) tree rest)
      (hfound : (∃ members, tree = .object members) → tree.Yields wanted text')
      (h : (if (skipSpace rest).isEmpty then some text' else none) = some found) :
      ∃ tree, Denotes text tree ∧
        ((∃ members, tree = .object members) → tree.Yields wanted found) := by
    obtain ⟨hend, h⟩ := Option.ite_none_right_eq_some.1 h
    cases h
    exact ⟨tree, ⟨rest, hspells, List.isEmpty_iff.1 hend⟩, hfound⟩
  unfold memberText at h
  dsimp only at h
  generalize skipSpace text.toList = s at h hdenotes
  split at h
  · split at h
    · rename_i hclosed
      exact hdenotes (.emptyObject hclosed) (fun _ => ⟨Nat.zero_le _, rfl⟩) h
    · obtain ⟨⟨found', left⟩, hread, h⟩ := Option.bind_eq_some_iff.1 h
      obtain ⟨⟨found', left⟩, hfind, heq⟩ := Option.map_eq_some_iff.1 hread
      cases heq
      obtain ⟨members, hmembers, hfound⟩ := exists_of_findMember hfind
      rw [skipSpace_skipSpace] at hmembers
      exact hdenotes (.object hmembers) (fun _ => .of_toList hfound) h
  · split at h
    · rename_i hclosed
      exact hdenotes (.emptyArray hclosed) (fun ⟨members, h⟩ => by cases h) h
    · obtain ⟨⟨value, left⟩, hoptional, h⟩ := Option.bind_eq_some_iff.1 h
      obtain ⟨source, tree, htree, -, -⟩ := exists_of_optionalText hoptional
      dsimp only at h
      split at h
      · rename_i hclosed
        rw [skipSpace_skipSpace] at htree
        exact hdenotes (.array (.last htree hclosed)) (fun ⟨members, h⟩ => by cases h) h
      · cases h
  · cases h

end Rulebook.Json
