import Rulebook.Proofs.Json.Places

/-!
# What a JSON text stands for

The value that a text denotes is the value of its structure: escapes are resolved, and of several
members with one name the last one counts. The reader finds it if brackets are not nested too deeply,
and only then: `read?_eq_some_iff`.
-/

namespace Rulebook.Json

namespace Written

mutual

/-- The value that a structure stands for. There is none if an escape names no character or a number
is beyond the doubles. -/
def standard : Written → Option Json
  | null => some .null
  | bool b => some (.bool b)
  | numeral n => ofNumeral n
  | string inside => (decode inside.chars).map fun s => .string (String.ofList s)
  | array items => (standardItems items).map .array
  | object members => (standardMembers members).map fun pairs => .object (Fields.ofPairs pairs)

/-- The values that items stand for. -/
def standardItems : List Written → Option (List Json)
  | [] => some []
  | item :: rest => do
    let item ← standard item
    let rest ← standardItems rest
    return item :: rest

/-- The members that written members stand for. -/
def standardMembers : List Member → Option (List (String × Json))
  | [] => some []
  | (name, _, value) :: rest => do
    let name ← decode name.chars
    let value ← standard value
    let rest ← standardMembers rest
    return (String.ofList name, value) :: rest

end

mutual

/-- The greatest number of brackets around a value. -/
def nesting : Written → Nat
  | array items => nestingItems items + 1
  | object members => nestingMembers members + 1
  | _ => 0

/-- The greatest nesting of items. -/
def nestingItems : List Written → Nat
  | [] => 0
  | item :: rest => max (nesting item) (nestingItems rest)

/-- The greatest nesting of the values of members. -/
def nestingMembers : List Member → Nat
  | [] => 0
  | (_, _, value) :: rest => max (nesting value) (nestingMembers rest)

end

end Written

open Written

variable {s rest after : List Char}

/-! ### What is read has a structure -/

/-- What is read with some fuel is the value of a structure. -/
structure ReadsStandard (fuel : Nat) : Prop where
  value : ∀ {limit : Nat} {s after : List Char} {value : Json},
    readValue fuel limit s = some (value, after) → after <:+ skipSpace s ∧
      ∃ tree, Spells (skipSpace s) tree after ∧ tree.standard = some value ∧ tree.nesting ≤ limit
  items : ∀ {limit : Nat} {s after : List Char} {items : List Json},
    readItems fuel limit s = some (items, after) → after <:+ skipSpace s ∧
      ∃ trees, SpellsItems (skipSpace s) trees after ∧ standardItems trees = some items ∧
        nestingItems trees ≤ limit
  members : ∀ {limit : Nat} {s after : List Char} {members : List (String × Json)},
    readMembers fuel limit s = some (members, after) → after <:+ skipSpace s ∧
      ∃ written, SpellsMembers (skipSpace s) written after ∧
        standardMembers written = some members ∧ nestingMembers written ≤ limit

theorem exists_inside_of_readString {text : String} (h : readString s = some (text, after)) :
    ∃ inside : Inside, splitString s = some (inside.chars, after) ∧
      ∃ decoded, decode inside.chars = some decoded ∧ text = String.ofList decoded := by
  obtain ⟨⟨chars, left⟩, hsplit, h⟩ := Option.bind_eq_some_iff.1 h
  obtain ⟨decoded, hdecode, h⟩ := Option.bind_eq_some_iff.1 h
  cases h
  exact ⟨⟨chars, (decode_bounds hdecode).1⟩, hsplit, decoded, hdecode, rfl⟩

namespace ReadsStandard

variable {fuel limit : Nat}

theorem value_succ (h : ReadsStandard fuel) {value : Json}
    (hread : readValue (fuel + 1) limit s = some (value, after)) : after <:+ skipSpace s ∧
      ∃ tree, Spells (skipSpace s) tree after ∧ tree.standard = some value ∧ tree.nesting ≤ limit := by
  rw [readValue] at hread
  generalize skipSpace s = s at hread
  split at hread
  · cases hread
    exact ⟨⟨['n', 'u', 'l', 'l'], rfl⟩, _, .null, rfl, Nat.zero_le _⟩
  · cases hread
    exact ⟨⟨['t', 'r', 'u', 'e'], rfl⟩, _, .boolTrue, rfl, Nat.zero_le _⟩
  · cases hread
    exact ⟨⟨['f', 'a', 'l', 's', 'e'], rfl⟩, _, .boolFalse, rfl, Nat.zero_le _⟩
  · obtain ⟨⟨text, left⟩, htext, hread⟩ := Option.bind_eq_some_iff.1 hread
    cases hread
    obtain ⟨inside, hsplit, decoded, hdecode, rfl⟩ := exists_inside_of_readString htext
    refine ⟨(splitString_suffix hsplit).trans (List.suffix_cons _ _), _, .string hsplit, ?_,
      Nat.zero_le _⟩
    rw [standard, hdecode]
    rfl
  · rename_i rest
    split at hread
    · cases hread
    · rename_i hlimit
      split at hread
      · rename_i hclosed
        cases hread
        exact ⟨(suffix_of_skipSpace_eq hclosed).trans (List.suffix_cons _ _), _,
          .emptyArray hclosed, rfl, Nat.pos_of_ne_zero hlimit⟩
      · obtain ⟨⟨items, left⟩, hitems, hread⟩ := Option.bind_eq_some_iff.1 hread
        cases hread
        obtain ⟨hsuffix, trees, htrees, hvalue, hdepth⟩ := h.items hitems
        rw [skipSpace_skipSpace] at hsuffix htrees
        refine ⟨(hsuffix.trans (skipSpace_suffix rest)).trans (List.suffix_cons _ _), _,
          .array htrees, ?_, ?_⟩
        · rw [standard, hvalue]
          rfl
        · rw [nesting]
          omega
  · rename_i rest
    split at hread
    · cases hread
    · rename_i hlimit
      split at hread
      · rename_i hclosed
        cases hread
        exact ⟨(suffix_of_skipSpace_eq hclosed).trans (List.suffix_cons _ _), _,
          .emptyObject hclosed, rfl, Nat.pos_of_ne_zero hlimit⟩
      · obtain ⟨⟨members, left⟩, hmembers, hread⟩ := Option.bind_eq_some_iff.1 hread
        cases hread
        obtain ⟨hsuffix, written, hwritten, hvalue, hdepth⟩ := h.members hmembers
        rw [skipSpace_skipSpace] at hsuffix hwritten
        refine ⟨(hsuffix.trans (skipSpace_suffix rest)).trans (List.suffix_cons _ _), _,
          .object hwritten, ?_, ?_⟩
        · rw [standard, hvalue]
          rfl
        · rw [nesting]
          omega
  · obtain ⟨⟨n, left⟩, hsplit, hread⟩ := Option.bind_eq_some_iff.1 hread
    obtain ⟨found, hfound, hread⟩ := Option.bind_eq_some_iff.1 hread
    cases hread
    exact ⟨splitNumeral_suffix hsplit, _, .numeral hsplit, hfound, Nat.zero_le _⟩

theorem items_succ (h : ReadsStandard fuel) {items : List Json}
    (hread : readItems (fuel + 1) limit s = some (items, after)) : after <:+ skipSpace s ∧
      ∃ trees, SpellsItems (skipSpace s) trees after ∧ standardItems trees = some items ∧
        nestingItems trees ≤ limit := by
  rw [readItems_succ] at hread
  obtain ⟨⟨item, left⟩, hitem, hread⟩ := Option.bind_eq_some_iff.1 hread
  obtain ⟨hsuffix, tree, htree, hvalue, hdepth⟩ := h.value hitem
  dsimp only [moreItems] at hread
  split at hread
  · rename_i next hcomma
    obtain ⟨⟨more, left⟩, hmore, hread⟩ := Option.bind_eq_some_iff.1 hread
    cases hread
    obtain ⟨hnext, trees, htrees, hvalues, hdepths⟩ := h.items hmore
    refine ⟨((hnext.trans (skipSpace_suffix next)).trans (suffix_of_skipSpace_eq hcomma)).trans
      hsuffix, _, .more htree hcomma htrees, ?_, Nat.max_le.2 ⟨hdepth, hdepths⟩⟩
    rw [standardItems, hvalue, hvalues]
    rfl
  · rename_i hclosed
    cases hread
    refine ⟨(suffix_of_skipSpace_eq hclosed).trans hsuffix, _, .last htree hclosed, ?_,
      Nat.max_le.2 ⟨hdepth, Nat.zero_le _⟩⟩
    rw [standardItems, hvalue]
    rfl
  · cases hread

theorem members_succ (h : ReadsStandard fuel) {members : List (String × Json)}
    (hread : readMembers (fuel + 1) limit s = some (members, after)) : after <:+ skipSpace s ∧
      ∃ written, SpellsMembers (skipSpace s) written after ∧
        standardMembers written = some members ∧ nestingMembers written ≤ limit := by
  rw [readMembers] at hread
  generalize skipSpace s = s at hread
  split at hread
  · obtain ⟨⟨name, colon⟩, hname, hread⟩ := Option.bind_eq_some_iff.1 hread
    obtain ⟨inside, hsplit, decoded, hdecode, rfl⟩ := exists_inside_of_readString hname
    dsimp only at hread
    split at hread
    · rename_i rest hmark
      obtain ⟨⟨value, left⟩, hvalue, hread⟩ := Option.bind_eq_some_iff.1 hread
      obtain ⟨hsuffix, tree, htree, hstandard, hdepth⟩ := h.value hvalue
      have hrest := (hsuffix.trans (skipSpace_suffix rest)).trans
        ((suffix_of_skipSpace_eq hmark).trans
          ((splitString_suffix hsplit).trans (List.suffix_cons '"' _)))
      obtain ⟨source, hsource⟩ := hsuffix
      have hmember := SpellsMember.mk hsplit hmark htree hsource.symm
      dsimp only at hread
      split at hread
      · rename_i next hcomma
        obtain ⟨⟨more, left⟩, hmore, hread⟩ := Option.bind_eq_some_iff.1 hread
        cases hread
        obtain ⟨hnext, written, hwritten, hvalues, hdepths⟩ := h.members hmore
        refine ⟨((hnext.trans (skipSpace_suffix next)).trans (suffix_of_skipSpace_eq hcomma)).trans
          hrest, _, .more hmember hcomma hwritten, ?_, Nat.max_le.2 ⟨hdepth, hdepths⟩⟩
        rw [standardMembers, hdecode, hstandard, hvalues]
        rfl
      · rename_i hclosed
        cases hread
        refine ⟨(suffix_of_skipSpace_eq hclosed).trans hrest, _, .last hmember hclosed, ?_,
          Nat.max_le.2 ⟨hdepth, Nat.zero_le _⟩⟩
        rw [standardMembers, hdecode, hstandard]
        rfl
      · cases hread
    · cases hread
  · cases hread

end ReadsStandard

theorem readsStandard (fuel : Nat) : ReadsStandard fuel := by
  induction fuel with
  | zero =>
    constructor <;>
    · intro limit s after found h
      cases h
  | succ fuel ih => exact ⟨ih.value_succ, ih.items_succ, ih.members_succ⟩

/-! ### What has a structure is read -/

theorem readValue_skipSpace (fuel limit : Nat) (s : List Char) :
    readValue (fuel + 1) limit (skipSpace s) = readValue (fuel + 1) limit s := by
  rw [readValue, readValue, skipSpace_skipSpace]

/-- A value takes up at least one character. -/
theorem Spells.length_lt {tree : Written} (h : Spells s tree after) (hends : Ends after) :
    after.length < s.length := by
  obtain ⟨c, body, rfl, -⟩ := h.takesUp hends
  rw [List.length_cons, List.length_append]
  omega

theorem SpellsItems.length_lt {items : List Written} (h : SpellsItems s items after) :
    after.length < s.length := by
  obtain ⟨c, body, rfl, -⟩ := h.takesUp
  rw [List.length_cons, List.length_append]
  omega

theorem SpellsMembers.length_lt {members : List Member} (h : SpellsMembers s members after) :
    after.length < s.length := by
  obtain ⟨c, body, rfl, -⟩ := h.takesUp
  rw [List.length_cons, List.length_append]
  omega

theorem length_skipSpace_le (s : List Char) : (skipSpace s).length ≤ s.length :=
  (skipSpace_suffix s).length_le

theorem length_lt_of_skipSpace_eq {c : Char} (h : skipSpace rest = c :: after) :
    after.length < rest.length := by
  have hle := length_skipSpace_le rest
  rw [h, List.length_cons] at hle
  omega

/-- A value before a mark ends there, and what is left gets shorter and shorter. -/
theorem Spells.lengths_of_mark {tree : Written} {c : Char} (h : Spells s tree rest)
    (hmark : skipSpace rest = c :: after) (hc : isNumeralPart c = false) :
    Ends rest ∧ rest.length < s.length ∧ after.length < rest.length := by
  obtain ⟨gap, hgap, hends⟩ := exists_gap_of_mark hmark hc
  have hends : Ends rest := hgap ▸ (hends _).1
  exact ⟨hends, h.length_lt hends, length_lt_of_skipSpace_eq hmark⟩

/-- The value of a member is shorter than what follows the quote before its name. -/
theorem length_lt_of_name {inside colon : List Char} (hsplit : splitString s = some (inside, colon))
    (hmark : skipSpace colon = ':' :: rest) : (skipSpace rest).length < s.length := by
  have hcolon := (splitString_suffix hsplit).length_le
  have hrest := length_lt_of_skipSpace_eq hmark
  have hvalue := length_skipSpace_le rest
  omega

theorem readString_of_decode {inside decoded : List Char} (hsplit : splitString s = some (inside, after))
    (hdecode : decode inside = some decoded) : readString s = some (String.ofList decoded, after) := by
  rw [readString, hsplit]
  show (decode inside).bind _ = _
  rw [hdecode]
  rfl

theorem readMembers_of_readString {fuel limit : Nat} {colon : List Char} {name : String} {t : List Char}
    (hquote : skipSpace t = '"' :: s) (hname : readString s = some (name, colon))
    (hmark : skipSpace colon = ':' :: rest) : readMembers (fuel + 1) limit t =
      (readValue fuel limit rest).bind fun (value, s) =>
        moreMembers fuel limit name value (skipSpace s) := by
  rw [readMembers, hquote]
  show (readString s).bind _ = _
  rw [hname, Option.bind_some]
  dsimp only
  rw [hmark]
  rfl

theorem SpellsMembers.exists_quote {members : List Member} (h : SpellsMembers s members after) :
    ∃ t, s = '"' :: t := by
  cases h with
  | last spells => cases spells with | mk => exact ⟨_, rfl⟩
  | more spells => cases spells with | mk => exact ⟨_, rfl⟩

/-- What the reader does behind the opening brace of an object. -/
def firstMembers (fuel limit : Nat) : List Char → Option (Json × List Char)
  | '\x7d' :: after => some (object [], after)
  | rest => do
    let (members, after) ← readMembers fuel limit rest
    return (object (Fields.ofPairs members), after)

mutual

/-- The reader finds the value of what is spelled. Each item and each member takes one unit of fuel and
at least one character besides those of its value. -/
theorem Spells.reads : ∀ {s after : List Char} {tree : Written}, Spells s tree after → Ends after →
    ∀ {t : List Char} {fuel limit : Nat} {value : Json}, skipSpace t = s →
      tree.standard = some value → tree.nesting ≤ limit →
      2 * s.length ≤ fuel + 2 * after.length → readValue fuel limit t = some (value, after)
  | s, after, tree, h, hends, t, 0, limit, value, _, _, _, hfuel => by
    have hlt := h.length_lt hends
    omega
  | _, _, _, .null, _, t, fuel + 1, limit, value, hskip, hvalue, _, _ => by
    cases hvalue
    rw [readValue, hskip]
    rfl
  | _, _, _, .boolTrue, _, t, fuel + 1, limit, value, hskip, hvalue, _, _ => by
    cases hvalue
    rw [readValue, hskip]
    rfl
  | _, _, _, .boolFalse, _, t, fuel + 1, limit, value, hskip, hvalue, _, _ => by
    cases hvalue
    rw [readValue, hskip]
    rfl
  | _, _, _, .string split, _, t, fuel + 1, limit, value, hskip, hvalue, _, _ => by
    obtain ⟨decoded, hdecode, rfl⟩ := Option.map_eq_some_iff.1 hvalue
    rw [readValue, hskip]
    show (readString _).bind _ = _
    rw [readString_of_decode split hdecode]
    rfl
  | _, _, _, .emptyArray closed, _, t, fuel + 1, limit, value, hskip, hvalue, hlimit, _ => by
    cases hvalue
    obtain ⟨limit, rfl⟩ := Nat.exists_eq_succ_of_ne_zero (Nat.ne_of_gt hlimit)
    rw [← readValue_skipSpace, hskip]
    show firstItems fuel limit (skipSpace _) = _
    rw [closed]
    rfl
  | _, after, _, @Spells.array s _ items spells, _, t, fuel + 1, limit, value, hskip, hvalue, hlimit,
      hfuel => by
    obtain ⟨found, hfound, rfl⟩ := Option.map_eq_some_iff.1 hvalue
    obtain ⟨limit, rfl⟩ := Nat.exists_eq_succ_of_ne_zero (Nat.ne_of_gt (Nat.zero_lt_of_lt hlimit))
    have hlength := length_skipSpace_le s
    rw [List.length_cons] at hfuel
    have hread : readItems fuel limit (skipSpace s) = some (found, after) :=
      spells.reads (skipSpace_skipSpace s) hfound (Nat.le_of_succ_le_succ hlimit) (by omega)
    obtain ⟨c, body, hs, hc, -⟩ := spells.takesUp
    -- an array with items does not begin with a closing bracket
    have hne : c ≠ ']' := by
      rintro rfl
      exact SpellsItems.not_closing (hs ▸ spells)
    rw [← readValue_skipSpace, hskip]
    show firstItems fuel limit (skipSpace s) = _
    rw [hs] at hread ⊢
    rw [firstItems]
    · rw [hread]
      rfl
    · exact fun after heq => hne (List.cons.inj heq).1
  | _, _, _, .emptyObject closed, _, t, fuel + 1, limit, value, hskip, hvalue, hlimit, _ => by
    cases hvalue
    obtain ⟨limit, rfl⟩ := Nat.exists_eq_succ_of_ne_zero (Nat.ne_of_gt hlimit)
    rw [← readValue_skipSpace, hskip]
    show firstMembers fuel limit (skipSpace _) = _
    rw [closed]
    rfl
  | _, after, _, @Spells.object s _ members spells, _, t, fuel + 1, limit, value, hskip, hvalue, hlimit,
      hfuel => by
    obtain ⟨found, hfound, rfl⟩ := Option.map_eq_some_iff.1 hvalue
    obtain ⟨limit, rfl⟩ := Nat.exists_eq_succ_of_ne_zero (Nat.ne_of_gt (Nat.zero_lt_of_lt hlimit))
    have hlength := length_skipSpace_le s
    rw [List.length_cons] at hfuel
    have hread : readMembers fuel limit (skipSpace s) = some (found, after) :=
      spells.reads (skipSpace_skipSpace s) hfound (Nat.le_of_succ_le_succ hlimit) (by omega)
    obtain ⟨body, hs⟩ := spells.exists_quote
    rw [← readValue_skipSpace, hskip]
    show firstMembers fuel limit (skipSpace s) = _
    rw [hs] at hread ⊢
    show (readMembers fuel limit _).bind _ = _
    rw [hread]
    rfl
  | _, _, _, .numeral split, _, t, fuel + 1, limit, value, hskip, hvalue, _, _ => by
    obtain ⟨c, tail, rfl, hc⟩ := exists_cons_of_splitNumeral split
    rw [← readValue_skipSpace, hskip, readValue_numeral hc, split]
    show (ofNumeral _).bind _ = _
    rw [show ofNumeral _ = some value from hvalue]
    rfl

theorem SpellsItems.reads : ∀ {s after : List Char} {items : List Written}, SpellsItems s items after →
    ∀ {t : List Char} {fuel limit : Nat} {values : List Json}, skipSpace t = s →
      standardItems items = some values → nestingItems items ≤ limit →
      2 * s.length ≤ fuel + 1 + 2 * after.length → readItems fuel limit t = some (values, after)
  | _, _, _, @SpellsItems.last s rest after item spells closed, t, fuel, limit, values, hskip, hvalue,
      hlimit, hfuel => by
    obtain ⟨hends, hlength, hlt⟩ := spells.lengths_of_mark closed (by decide)
    obtain ⟨fuel, rfl⟩ := Nat.exists_eq_succ_of_ne_zero (n := fuel) (by omega)
    obtain ⟨value, hitem, hvalue⟩ := Option.bind_eq_some_iff.1 hvalue
    cases hvalue
    rw [readItems_succ, spells.reads hends hskip hitem (Nat.max_le.1 hlimit).1 (by omega),
      Option.bind_some]
    dsimp only
    rw [closed]
    rfl
  | _, _, _, @SpellsItems.more s rest next after item items spells comma others, t, fuel, limit, values,
      hskip, hvalue, hlimit, hfuel => by
    obtain ⟨hends, hlength, hlt⟩ := spells.lengths_of_mark comma (by decide)
    have hnext := length_skipSpace_le next
    have hothers := others.length_lt
    obtain ⟨fuel, rfl⟩ := Nat.exists_eq_succ_of_ne_zero (n := fuel) (by omega)
    obtain ⟨value, hitem, hvalue⟩ := Option.bind_eq_some_iff.1 hvalue
    obtain ⟨more, hmore, hvalue⟩ := Option.bind_eq_some_iff.1 hvalue
    cases hvalue
    obtain ⟨hfirst, hrest⟩ := Nat.max_le.1 hlimit
    have hread : readItems fuel limit next = some (more, after) :=
      others.reads rfl hmore hrest (by omega)
    rw [readItems_succ, spells.reads hends hskip hitem hfirst (by omega), Option.bind_some]
    dsimp only
    rw [comma]
    show (readItems fuel limit next).bind _ = _
    rw [hread]
    rfl

theorem SpellsMembers.reads : ∀ {s after : List Char} {members : List Member},
    SpellsMembers s members after →
    ∀ {t : List Char} {fuel limit : Nat} {values : List (String × Json)}, skipSpace t = s →
      standardMembers members = some values → nestingMembers members ≤ limit →
      2 * s.length ≤ fuel + 1 + 2 * after.length → readMembers fuel limit t = some (values, after)
  | _, _, _, @SpellsMembers.last _ left after _
      (@SpellsMember.mk s colon rest _ source name value split mark spells _) closed,
      t, fuel, limit, values, hskip, hvalue, hlimit, hfuel => by
    obtain ⟨hends, hlength, hlt⟩ := spells.lengths_of_mark closed (by decide)
    have hname := length_lt_of_name split mark
    rw [List.length_cons] at hfuel
    obtain ⟨fuel, rfl⟩ := Nat.exists_eq_succ_of_ne_zero (n := fuel) (by omega)
    obtain ⟨decoded, hdecode, hvalue⟩ := Option.bind_eq_some_iff.1 hvalue
    obtain ⟨found, hfound, hvalue⟩ := Option.bind_eq_some_iff.1 hvalue
    cases hvalue
    rw [readMembers_of_readString hskip (readString_of_decode split hdecode) mark,
      spells.reads hends rfl hfound (Nat.max_le.1 hlimit).1 (by omega), Option.bind_some]
    dsimp only
    rw [closed]
    rfl
  | _, _, _, @SpellsMembers.more _ left next after _ members
      (@SpellsMember.mk s colon rest _ source name value split mark spells _) comma others,
      t, fuel, limit, values, hskip, hvalue, hlimit, hfuel => by
    obtain ⟨hends, hlength, hlt⟩ := spells.lengths_of_mark comma (by decide)
    have hname := length_lt_of_name split mark
    have hnext := length_skipSpace_le next
    have hothers := others.length_lt
    rw [List.length_cons] at hfuel
    obtain ⟨fuel, rfl⟩ := Nat.exists_eq_succ_of_ne_zero (n := fuel) (by omega)
    obtain ⟨decoded, hdecode, hvalue⟩ := Option.bind_eq_some_iff.1 hvalue
    obtain ⟨found, hfound, hvalue⟩ := Option.bind_eq_some_iff.1 hvalue
    obtain ⟨more, hmore, hvalue⟩ := Option.bind_eq_some_iff.1 hvalue
    cases hvalue
    obtain ⟨hfirst, hrest⟩ := Nat.max_le.1 hlimit
    have hread : readMembers fuel limit next = some (more, after) :=
      others.reads rfl hmore hrest (by omega)
    rw [readMembers_of_readString hskip (readString_of_decode split hdecode) mark,
      spells.reads hends rfl hfound hfirst (by omega), Option.bind_some]
    dsimp only
    rw [comma]
    show (readMembers fuel limit next).bind _ = _
    rw [hread]
    rfl

end

/-- **The value that a text denotes is the value of its structure.** A text has a value if and only if
it has a structure that stands for one and brackets are nested no deeper than the reader goes. -/
theorem read?_eq_some_iff {text : String} {value : Json} : read? text = some value ↔
    ∃ tree, Denotes text tree ∧ tree.standard = some value ∧ tree.nesting ≤ maxDepth := by
  constructor
  · intro h
    obtain ⟨⟨found, rest⟩, hread, h⟩ := Option.bind_eq_some_iff.1 h
    obtain ⟨hend, h⟩ := Option.ite_none_right_eq_some.1 h
    cases h
    obtain ⟨-, tree, hspells, hvalue, hnesting⟩ := (readsStandard _).value hread
    exact ⟨tree, ⟨rest, hspells, List.isEmpty_iff.1 hend⟩, hvalue, hnesting⟩
  · rintro ⟨tree, ⟨rest, hspells, hrest⟩, hvalue, hnesting⟩
    have hlength := length_skipSpace_le text.toList
    have hread : readValue (2 * text.toList.length + 2) maxDepth text.toList = some (value, rest) :=
      hspells.reads (ends_of_skipSpace_eq_nil hrest) rfl hvalue hnesting (by omega)
    rw [read?]
    dsimp only
    rw [hread]
    show (if (skipSpace rest).isEmpty = true then some value else none) = _
    rw [hrest]
    rfl

/-- The value of a text whose structure is known. -/
theorem read?_of_denotes {text : String} {tree : Written} (h : Denotes text tree) :
    read? text = if tree.nesting ≤ maxDepth then tree.standard else none := by
  refine Option.ext fun value => read?_eq_some_iff.trans ?_
  rw [Option.ite_none_right_eq_some]
  constructor
  · rintro ⟨other, hother, hvalue, hnesting⟩
    rw [hother.unique h] at hvalue hnesting
    exact ⟨hnesting, hvalue⟩
  · rintro ⟨hnesting, hvalue⟩
    exact ⟨tree, h, hvalue, hnesting⟩

/-- The value of a text under a name. -/
theorem read?_singleton {text : String} {tree : Written} (h : Denotes text tree) (name : String) :
    read? (Json.singleton name text) =
      if tree.nesting < maxDepth then tree.standard.map fun value => object [(name, value)]
      else none := by
  obtain ⟨inside, hdecode, source, hdenotes⟩ := h.singleton name
  have hnesting : nesting (.object [(inside, source, tree)]) = tree.nesting + 1 :=
    congrArg (· + 1) (Nat.max_zero _)
  have hstandard : standard (.object [(inside, source, tree)]) =
      tree.standard.map fun value => object [(name, value)] := by
    rw [standard, standardMembers, hdecode, standardMembers]
    cases tree.standard with
    | none => rfl
    | some value =>
      show some (object [(String.ofList name.toList, value)]) = _
      rw [String.ofList_toList]
      rfl
  rw [read?_of_denotes hdenotes, hnesting, hstandard]
  rfl

end Rulebook.Json
