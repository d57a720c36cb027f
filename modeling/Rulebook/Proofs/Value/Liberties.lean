import Rulebook.Proofs.Value.Verbatim

/-!
# What only the verbatim reader takes

The verbatim reader takes liberties that the grammar of JSON does not know: blanks of any kind around
a text, control characters in strings, a hash sign before a brace, and a point without a digit after
it. A text without them is read verbatim if and only if it has a structure: `isSome_read?_iff`.
-/

namespace Rulebook

open Json Json.Written

namespace Verbatim

/-- Whether a text takes none of the liberties that only the verbatim reader gives. -/
structure Strict (s : List Char) : Prop where
  blanks : ∀ c ∈ s, Text.isBlank c = true → isSpace c = true
  /-- From a quote to the one that closes a string there are no control characters. -/
  strings : ∀ t inside after, '"' :: t <:+ s → splitString t = some (inside, after) →
    ∀ c ∈ inside, 32 ≤ c.toNat
  braces : ∀ rest, ¬ '#' :: '\x7b' :: rest <:+ s
  points : ∀ rest, '.' :: rest <:+ s → rest.head?.any Char.isDigit = true

variable {s t rest after : List Char}

theorem Strict.suffix (h : Strict s) (hsuffix : t <:+ s) : Strict t where
  blanks c hc := h.blanks c (hsuffix.subset hc)
  strings u inside after hu := h.strings u inside after (hu.trans hsuffix)
  braces rest hrest := h.braces rest (hrest.trans hsuffix)
  points rest hrest := h.points rest (hrest.trans hsuffix)

theorem Strict.skipSpace (h : Strict s) : Strict (skipSpace s) := h.suffix (skipSpace_suffix s)

theorem Strict.of_mark {c : Char} (h : Strict s) (hmark : Json.skipSpace s = c :: after) :
    Strict after := h.suffix (suffix_of_skipSpace_eq hmark)

/-! ### Lexemes -/

/-- Without control characters, escapes are all that can go wrong with the inside of a string. -/
theorem isPlausible_of_hasEscapes (h : hasEscapes s = true) (hplain : ∀ c ∈ s, 32 ≤ c.toNat) :
    isPlausible s = true := by
  induction s using hasEscapes.induct with
  | case1 => rfl
  | case2 a b c d rest ih =>
    rw [hasEscapes, Bool.and_eq_true] at h
    rw [isPlausible, h.1, ih h.2 fun e he => hplain e (by simp [he])]
    rfl
  | case3 c rest hu ih =>
    rw [hasEscapes, Bool.and_eq_true] at h
    · rw [isPlausible, h.1, ih h.2 fun e he => hplain e (by simp [he])]
      · rfl
      · exact hu
    · exact hu
  | case4 => cases h
  | case5 c rest hu hescape hend ih =>
    rw [hasEscapes] at h
    · rw [isPlausible, ih h fun e he => hplain e (by simp [he]), decide_eq_true (hplain c (by simp))]
      · rfl
      · exact hu
      · exact hescape
      · exact hend
    · exact hu
    · exact hescape
    · exact hend

theorem exists_inside_of_readString {text : String} (hs : Strict ('"' :: s))
    (h : readString s = some (text, after)) :
    ∃ inside : Inside, splitString s = some (inside.chars, after) := by
  obtain ⟨⟨chars, left⟩, hsplit, h⟩ := Option.bind_eq_some_iff.1 h
  obtain ⟨hescapes, h⟩ := Option.ite_none_right_eq_some.1 h
  cases h
  have hplain := hs.strings s chars after (List.suffix_refl _) hsplit
  exact ⟨⟨chars, isPlausible_of_hasEscapes hescapes hplain⟩, hsplit⟩

theorem splitFraction_of_points {fraction : Option (List Char)}
    (hs : ∀ rest, '.' :: rest <:+ s → rest.head?.any Char.isDigit = true)
    (h : splitFraction true s = some (fraction, after)) :
    splitFraction false s = some (fraction, after) := by
  unfold splitFraction at h ⊢
  split at h
  · rename_i rest
    obtain ⟨c, tail, rfl, hc⟩ : ∃ c tail, rest = c :: tail ∧ c.isDigit = true := by
      have hhead := hs rest (List.suffix_refl _)
      cases rest with
      | nil => cases hhead
      | cons c tail => exact ⟨c, tail, rfl, hhead⟩
    simpa [List.takeWhile_cons, hc] using h
  · exact h

/-- A numeral all of whose points are followed by digits. -/
theorem Strict.splitNumeral (hs : Strict s) {n : Numeral}
    (h : Json.splitNumeral true s = some (n, after)) :
    Json.splitNumeral false s = some (n, after) := by
  simp only [Json.splitNumeral, Option.bind_eq_bind, Option.bind_eq_some_iff] at h ⊢
  obtain ⟨⟨whole, t⟩, hwhole, ⟨fraction, u⟩, hfraction, exponent⟩ := h
  have ht : Strict t := hs.suffix ((splitWhole_suffix hwhole).trans (splitMinus_suffix s))
  exact ⟨(whole, t), hwhole, (fraction, u), splitFraction_of_points ht.points hfraction, exponent⟩

theorem Strict.eq_brace_of_afterOpening (hs : Strict s) (h : afterOpening s = some after) :
    s = '\x7b' :: after := by
  unfold afterOpening at h
  split at h
  · cases h
    rfl
  · exact absurd (List.suffix_refl _) (hs.braces _)
  · cases h

/-! ### Values -/

/-- What is read with some fuel from a text without liberties is spelled there. -/
structure ReadsStrict (fuel : Nat) : Prop where
  value : ∀ {s after : List Char} {value : Value}, Strict s →
    readValue fuel s = some (value, after) → after <:+ s ∧ ∃ tree, Spells s tree after
  items : ∀ {s after : List Char} {items : List Value}, Strict s →
    readItems fuel s = some (items, after) → after <:+ s ∧ ∃ trees, SpellsItems s trees after
  fields : ∀ {s after : List Char} {fields : List (String × Value)}, Strict s →
    readFields fuel s = some (fields, after) → after <:+ s ∧ ∃ members, SpellsMembers s members after

namespace ReadsStrict

variable {fuel : Nat}

theorem value_succ (h : ReadsStrict fuel) {value : Value} (hs : Strict s)
    (hread : readValue (fuel + 1) s = some (value, after)) :
    after <:+ s ∧ ∃ tree, Spells s tree after := by
  rw [readValue.eq_def] at hread
  dsimp only at hread
  split at hread
  · cases hread
    exact ⟨⟨['n', 'u', 'l', 'l'], rfl⟩, _, .null⟩
  · cases hread
    exact ⟨⟨['t', 'r', 'u', 'e'], rfl⟩, _, .boolTrue⟩
  · cases hread
    exact ⟨⟨['f', 'a', 'l', 's', 'e'], rfl⟩, _, .boolFalse⟩
  · obtain ⟨⟨text, left⟩, htext, hread⟩ := Option.bind_eq_some_iff.1 hread
    cases hread
    obtain ⟨inside, hsplit⟩ := exists_inside_of_readString hs htext
    exact ⟨(splitString_suffix hsplit).trans (List.suffix_cons _ _), _, .string hsplit⟩
  · rename_i rest
    have hrest : Strict rest := hs.suffix (List.suffix_cons _ _)
    split at hread
    · rename_i hclosed
      cases hread
      exact ⟨(suffix_of_skipSpace_eq hclosed).trans (List.suffix_cons _ _), _, .emptyArray hclosed⟩
    · obtain ⟨⟨items, left⟩, hitems, hread⟩ := Option.bind_eq_some_iff.1 hread
      cases hread
      obtain ⟨hsuffix, trees, htrees⟩ := h.items hrest.skipSpace hitems
      exact ⟨(hsuffix.trans (skipSpace_suffix rest)).trans (List.suffix_cons _ _), _, .array htrees⟩
  · split at hread
    · rename_i rest hopening
      -- a strict text opens objects in one way only
      obtain rfl := hs.eq_brace_of_afterOpening hopening
      have hrest : Strict rest := hs.suffix (List.suffix_cons _ _)
      split at hread
      · rename_i hclosed
        cases hread
        exact ⟨(suffix_of_skipSpace_eq hclosed).trans (List.suffix_cons _ _), _,
          .emptyObject hclosed⟩
      · obtain ⟨⟨fields, left⟩, hfields, hread⟩ := Option.bind_eq_some_iff.1 hread
        cases hread
        obtain ⟨hsuffix, members, hmembers⟩ := h.fields hrest.skipSpace hfields
        exact ⟨(hsuffix.trans (skipSpace_suffix rest)).trans (List.suffix_cons _ _), _,
          .object hmembers⟩
    · obtain ⟨⟨n, left⟩, hsplit, hread⟩ := Option.bind_eq_some_iff.1 hread
      cases hread
      exact ⟨splitNumeral_suffix hsplit, _, .numeral (hs.splitNumeral hsplit)⟩

theorem items_succ (h : ReadsStrict fuel) {items : List Value} (hs : Strict s)
    (hread : readItems (fuel + 1) s = some (items, after)) :
    after <:+ s ∧ ∃ trees, SpellsItems s trees after := by
  rw [readItems] at hread
  obtain ⟨⟨item, left⟩, hitem, hread⟩ := Option.bind_eq_some_iff.1 hread
  obtain ⟨hsuffix, tree, htree⟩ := h.value hs hitem
  have hleft := hs.suffix hsuffix
  dsimp only at hread
  split at hread
  · rename_i next hcomma
    obtain ⟨⟨more, left⟩, hmore, hread⟩ := Option.bind_eq_some_iff.1 hread
    cases hread
    obtain ⟨hnext, trees, htrees⟩ := h.items (hleft.of_mark hcomma).skipSpace hmore
    exact ⟨((hnext.trans (skipSpace_suffix next)).trans (suffix_of_skipSpace_eq hcomma)).trans
      hsuffix, _, .more htree hcomma htrees⟩
  · rename_i hclosed
    cases hread
    exact ⟨(suffix_of_skipSpace_eq hclosed).trans hsuffix, _, .last htree hclosed⟩
  · cases hread

theorem fields_succ (h : ReadsStrict fuel) {fields : List (String × Value)} (hs : Strict s)
    (hread : readFields (fuel + 1) s = some (fields, after)) :
    after <:+ s ∧ ∃ members, SpellsMembers s members after := by
  rw [readFields.eq_def] at hread
  dsimp only at hread
  split at hread
  · obtain ⟨⟨name, colon⟩, hname, hread⟩ := Option.bind_eq_some_iff.1 hread
    obtain ⟨inside, hsplit⟩ := exists_inside_of_readString hs hname
    have hcolon := (splitString_suffix hsplit).trans (List.suffix_cons '"' _)
    dsimp only at hread
    split at hread
    · rename_i rest hmark
      obtain ⟨⟨value, left⟩, hvalue, hread⟩ := Option.bind_eq_some_iff.1 hread
      obtain ⟨hsuffix, tree, htree⟩ :=
        h.value ((hs.suffix hcolon).of_mark hmark).skipSpace hvalue
      have hrest := (hsuffix.trans (skipSpace_suffix rest)).trans
        ((suffix_of_skipSpace_eq hmark).trans hcolon)
      obtain ⟨source, hsource⟩ := hsuffix
      have hmember := SpellsMember.mk hsplit hmark htree hsource.symm
      have hleft := hs.suffix hrest
      dsimp only at hread
      split at hread
      · rename_i next hcomma
        obtain ⟨⟨more, left⟩, hmore, hread⟩ := Option.bind_eq_some_iff.1 hread
        cases hread
        obtain ⟨hnext, members, hmembers⟩ := h.fields (hleft.of_mark hcomma).skipSpace hmore
        exact ⟨((hnext.trans (skipSpace_suffix next)).trans (suffix_of_skipSpace_eq hcomma)).trans
          hrest, _, .more hmember hcomma hmembers⟩
      · rename_i hclosed
        cases hread
        exact ⟨(suffix_of_skipSpace_eq hclosed).trans hrest, _, .last hmember hclosed⟩
      · cases hread
    · cases hread
  · cases hread

end ReadsStrict

theorem readsStrict (fuel : Nat) : ReadsStrict fuel := by
  induction fuel with
  | zero =>
    constructor <;>
    · intro s after found hs h
      cases h
  | succ fuel ih => exact ⟨ih.value_succ, ih.items_succ, ih.fields_succ⟩

/-! ### Texts -/

/-- Where all blanks are those of JSON, both readers skip the same at the start of a text. -/
theorem Strict.trimLeft_eq (h : Strict s) : Text.trimLeft s = Json.skipSpace s := by
  have hsame : ∀ c ∈ s, Text.isBlank c = isSpace c := fun c hc =>
    Bool.eq_iff_iff.2 ⟨h.blanks c hc, isBlank_of_isSpace⟩
  clear h
  induction s with
  | nil => rfl
  | cons c s ih =>
    have hc := hsame c List.mem_cons_self
    rw [Text.trimLeft, Json.skipSpace, List.dropWhile_cons, List.dropWhile_cons, hc]
    split
    · exact ih fun d hd => hsame d (List.mem_cons_of_mem c hd)
    · rfl

/-- What is cut off from the end of a text is blanks of JSON. -/
theorem Strict.exists_trimRight (h : Strict s) :
    ∃ tail, s = Text.trimRight s ++ tail ∧ tail.all isSpace = true := by
  refine ⟨(s.reverse.takeWhile Text.isBlank).reverse, ?_, ?_⟩
  · rw [Text.trimRight, ← List.reverse_append, List.takeWhile_append_dropWhile, List.reverse_reverse]
  · refine List.all_eq_true.2 fun c hc => ?_
    rw [List.mem_reverse] at hc
    have hblank : Text.isBlank c = true := List.all_eq_true.1 List.all_takeWhile c hc
    exact h.blanks c (List.mem_reverse.1 ((List.takeWhile_prefix _).subset hc)) hblank

/-- A text takes no liberties before blanks if it takes none with them. -/
theorem Strict.of_append {tail : List Char} (h : Strict (s ++ tail))
    (hblank : tail.all isSpace = true) : Strict s := by
  have hsuffix {t : List Char} (ht : t <:+ s) : t ++ tail <:+ s ++ tail := by
    obtain ⟨front, rfl⟩ := ht
    exact ⟨front, (List.append_assoc _ _ _).symm⟩
  refine ⟨fun c hc => h.blanks c (List.mem_append_left tail hc), ?_, ?_, ?_⟩
  · intro t inside after ht hsplit
    exact h.strings (t ++ tail) inside (after ++ tail) (hsuffix ht) (splitString_append hsplit tail)
  · exact fun rest hrest => h.braces (rest ++ tail) (hsuffix hrest)
  · intro rest hrest
    have hhead := h.points (rest ++ tail) (hsuffix hrest)
    cases rest with
    | nil =>
      rw [List.nil_append, (ends_of_all_isSpace hblank).digit] at hhead
      cases hhead
    | cons c rest => exact hhead

/-- **A text that takes no liberties is read verbatim if and only if it has a structure.** -/
theorem isSome_read?_iff {text : String} (h : Strict text.toList) :
    (read? text).isSome = true ↔ ∃ tree, Denotes text tree := by
  constructor
  · intro hsome
    obtain ⟨value, hvalue⟩ := Option.isSome_iff_exists.1 hsome
    obtain ⟨⟨found, left⟩, hread, hvalue⟩ := Option.bind_eq_some_iff.1 hvalue
    obtain ⟨hleft, -⟩ := Option.ite_none_right_eq_some.1 hvalue
    obtain rfl := List.isEmpty_iff.1 hleft
    rw [Text.trim, h.trimLeft_eq] at hread
    obtain ⟨tail, htail, hblank⟩ := h.skipSpace.exists_trimRight
    generalize Text.trimRight (Json.skipSpace text.toList) = body at hread htail
    have hbody : Strict body := (htail ▸ h.skipSpace).of_append hblank
    obtain ⟨-, tree, hspells⟩ := (readsStrict _).value hbody hread
    obtain ⟨c, inner, rfl, -, hmove⟩ := hspells.takesUp rfl
    have hends : Ends tail := ends_of_all_isSpace hblank
    refine ⟨tree, tail, ?_, List.dropWhile_eq_nil_iff.2 (List.all_eq_true.1 hblank)⟩
    rw [htail, List.append_nil, List.cons_append]
    exact hmove tail hends
  · rintro ⟨tree, htree⟩
    rw [read?_of_denotes htree]
    rfl

end Verbatim

/-! ### Texts that are not JSON -/

/-- A text with a structure is not JSON if it is nested too deeply or stands for no value. -/
theorem Value.readJson?_eq_none_iff_of_denotes {text : String} {tree : Written}
    (h : Denotes text tree) :
    Value.readJson? text = none ↔ tree.standard = none ∨ maxDepth < tree.nesting := by
  rw [Value.readJson?, Option.map_eq_none_iff, read?_of_denotes h]
  split
  · rename_i hdepth
    exact ⟨.inl, fun h => h.resolve_right (Nat.not_lt.2 hdepth)⟩
  · rename_i hdepth
    exact iff_of_true rfl (.inr (Nat.lt_of_not_le hdepth))

theorem Value.readJson?_eq_none_of_not_denotes {text : String}
    (h : ∀ tree, ¬ Denotes text tree) : Value.readJson? text = none := by
  rw [Value.readJson?, Option.map_eq_none_iff, Option.eq_none_iff_forall_not_mem]
  intro value hvalue
  obtain ⟨tree, htree, -⟩ := read?_eq_some_iff.1 hvalue
  exact h tree htree

end Rulebook
