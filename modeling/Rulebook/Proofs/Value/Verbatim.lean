import Rulebook.Proofs.Configuration.Transcription
import Rulebook.Proofs.Json.Standard

/-!
# Every JSON text can be read verbatim

The verbatim reader takes more texts than the grammar of JSON has, and by the grammar it takes all:
`Verbatim.read?_of_denotes`. It does not matter how deep brackets are nested, which characters the
escapes name and how large the numbers are.
-/

namespace Rulebook

open Json Json.Written

namespace Verbatim

variable {s rest after : List Char}

theorem hasEscapes_of_isPlausible (h : isPlausible s = true) : hasEscapes s = true := by
  induction s using isPlausible.induct with
  | case1 => rfl
  | case2 a b c d rest ih =>
    rw [isPlausible, Bool.and_eq_true] at h
    rw [hasEscapes, h.1, ih h.2]
    rfl
  | case3 c rest hu ih =>
    rw [isPlausible, Bool.and_eq_true] at h
    · rw [hasEscapes, h.1, ih h.2]
      · rfl
      · exact hu
    · exact hu
  | case4 => cases h
  | case5 c rest hu hescape hend ih =>
    rw [isPlausible, Bool.and_eq_true] at h
    · rw [hasEscapes, ih h.2]
      · exact hu
      · exact hescape
      · exact hend
    · exact hu
    · exact hescape
    · exact hend

theorem readString_of_split {inside : Inside} (h : splitString s = some (inside.chars, after)) :
    readString s = some (String.ofList inside.chars, after) := by
  rw [readString, h]
  show (if hasEscapes inside.chars = true then _ else none) = _
  rw [if_pos (hasEscapes_of_isPlausible inside.wellFormed)]
  rfl

/-- What the reader does behind the opening bracket of a list. -/
def firstItems (fuel : Nat) : List Char → Option (Value × List Char)
  | ']' :: after => some (.list [], after)
  | rest => do
    let (items, after) ← readItems fuel rest
    return (.list items, after)

/-- What the reader does behind the opening brace of a record. -/
def firstFields (fuel : Nat) : List Char → Option (Value × List Char)
  | '\x7d' :: after => some (.record [], after)
  | rest => do
    let (fields, after) ← readFields fuel rest
    return (.record (Fields.ofPairs fields), after)

theorem readValue_numeral {fuel : Nat} {c : Char} (hc : isNumeralPart c = true) (s : List Char) :
    readValue (fuel + 1) (c :: s) = (do
      let (n, after) ← splitNumeral true (c :: s)
      return (.number (ofNumeral n), after)) := by
  rw [readValue.eq_def]
  dsimp only
  split
  case h_6 =>
    have hopening : afterOpening (c :: s) = none := by
      unfold afterOpening
      split
      · rename_i heq
        cases heq
        exact absurd hc (by decide)
      · rename_i heq
        cases heq
        exact absurd hc (by decide)
      · rfl
    rw [hopening]
  all_goals
    rename_i heq
    cases heq
    exact absurd hc (by decide)

/-- What the reader does behind an item. -/
def moreItems (fuel : Nat) (item : Value) : List Char → Option (List Value × List Char)
  | ',' :: rest => do
    let (items, after) ← readItems fuel (skipSpace rest)
    return (item :: items, after)
  | ']' :: after => return ([item], after)
  | _ => none

theorem readItems_succ (fuel : Nat) (s : List Char) : readItems (fuel + 1) s =
    (readValue fuel s).bind fun (item, s) => moreItems fuel item (skipSpace s) := by
  rw [readItems]
  rfl

/-- What the reader does behind a field. -/
def moreFields (fuel : Nat) (name : String) (value : Value) :
    List Char → Option (List (String × Value) × List Char)
  | ',' :: rest => do
    let (fields, after) ← readFields fuel (skipSpace rest)
    return ((name, value) :: fields, after)
  | '\x7d' :: after => return ([(name, value)], after)
  | _ => none

theorem readFields_of_readString {fuel : Nat} {colon : List Char} {name : String}
    (hname : readString s = some (name, colon)) (hmark : skipSpace colon = ':' :: rest) :
    readFields (fuel + 1) ('"' :: s) = (readValue fuel (skipSpace rest)).bind fun (value, s) =>
      moreFields fuel name value (skipSpace s) := by
  rw [readFields]
  show (readString s).bind _ = _
  rw [hname, Option.bind_some]
  dsimp only
  rw [hmark]
  rfl

end Verbatim

/-! ### What is spelled is read -/

mutual

/-- The verbatim reader finds the value of what is spelled, with the same fuel as the reader of JSON. -/
theorem Json.Spells.readsVerbatim : ∀ {s after : List Char} {tree : Written}, Spells s tree after →
    Ends after → ∀ {fuel : Nat}, 2 * s.length ≤ fuel + 2 * after.length →
      Verbatim.readValue fuel s = some (tree.verbatim, after)
  | s, after, tree, h, hends, 0, hfuel => by
    have hlt := h.length_lt hends
    omega
  | _, _, _, .null, _, fuel + 1, _ => rfl
  | _, _, _, .boolTrue, _, fuel + 1, _ => rfl
  | _, _, _, .boolFalse, _, fuel + 1, _ => rfl
  | _, _, _, .string split, _, fuel + 1, _ => by
    show (Verbatim.readString _).bind _ = _
    rw [Verbatim.readString_of_split split]
    rfl
  | _, _, _, .emptyArray closed, _, fuel + 1, _ => by
    show Verbatim.firstItems fuel (skipSpace _) = _
    rw [closed]
    rfl
  | _, after, _, @Spells.array s _ items spells, _, fuel + 1, hfuel => by
    have hlength := length_skipSpace_le s
    rw [List.length_cons] at hfuel
    have hread : Verbatim.readItems fuel (skipSpace s) = some (verbatimItems items, after) :=
      spells.readsVerbatim (by omega)
    obtain ⟨c, body, hs, -⟩ := spells.takesUp
    have hne : c ≠ ']' := by
      rintro rfl
      exact SpellsItems.not_closing (hs ▸ spells)
    show Verbatim.firstItems fuel (skipSpace s) = _
    rw [hs] at hread ⊢
    rw [Verbatim.firstItems]
    · rw [hread]
      rfl
    · exact fun after heq => hne (List.cons.inj heq).1
  | _, _, _, .emptyObject closed, _, fuel + 1, _ => by
    show Verbatim.firstFields fuel (skipSpace _) = _
    rw [closed]
    rfl
  | _, after, _, @Spells.object s _ members spells, _, fuel + 1, hfuel => by
    have hlength := length_skipSpace_le s
    rw [List.length_cons] at hfuel
    have hread : Verbatim.readFields fuel (skipSpace s) = some (verbatimMembers members, after) :=
      spells.readsVerbatim (by omega)
    obtain ⟨body, hs⟩ := spells.exists_quote
    show Verbatim.firstFields fuel (skipSpace s) = _
    rw [hs] at hread ⊢
    show (Verbatim.readFields fuel _).bind _ = _
    rw [hread]
    rfl
  | _, _, _, .numeral split, _, fuel + 1, _ => by
    obtain ⟨c, tail, rfl, hc⟩ := exists_cons_of_splitNumeral split
    rw [Verbatim.readValue_numeral hc, splitNumeral_of_strict true split]
    rfl

theorem Json.SpellsItems.readsVerbatim : ∀ {s after : List Char} {items : List Written},
    SpellsItems s items after → ∀ {fuel : Nat}, 2 * s.length ≤ fuel + 1 + 2 * after.length →
      Verbatim.readItems fuel s = some (verbatimItems items, after)
  | _, _, _, @SpellsItems.last s rest after item spells closed, fuel, hfuel => by
    obtain ⟨hends, hlength, hlt⟩ := spells.lengths_of_mark closed (by decide)
    obtain ⟨fuel, rfl⟩ := Nat.exists_eq_succ_of_ne_zero (n := fuel) (by omega)
    rw [Verbatim.readItems_succ, spells.readsVerbatim hends (by omega), Option.bind_some]
    dsimp only
    rw [closed]
    rfl
  | _, _, _, @SpellsItems.more s rest next after item items spells comma others, fuel, hfuel => by
    obtain ⟨hends, hlength, hlt⟩ := spells.lengths_of_mark comma (by decide)
    have hnext := length_skipSpace_le next
    have hothers := others.length_lt
    obtain ⟨fuel, rfl⟩ := Nat.exists_eq_succ_of_ne_zero (n := fuel) (by omega)
    have hread : Verbatim.readItems fuel (skipSpace next) = some (verbatimItems items, after) :=
      others.readsVerbatim (by omega)
    rw [Verbatim.readItems_succ, spells.readsVerbatim hends (by omega), Option.bind_some]
    dsimp only
    rw [comma]
    show (Verbatim.readItems fuel (skipSpace next)).bind _ = _
    rw [hread]
    rfl

theorem Json.SpellsMembers.readsVerbatim : ∀ {s after : List Char} {members : List Member},
    SpellsMembers s members after → ∀ {fuel : Nat}, 2 * s.length ≤ fuel + 1 + 2 * after.length →
      Verbatim.readFields fuel s = some (verbatimMembers members, after)
  | _, _, _, @SpellsMembers.last _ left after _
      (@SpellsMember.mk s colon rest _ source name value split mark spells _) closed, fuel, hfuel => by
    obtain ⟨hends, hlength, hlt⟩ := spells.lengths_of_mark closed (by decide)
    have hname := length_lt_of_name split mark
    rw [List.length_cons] at hfuel
    obtain ⟨fuel, rfl⟩ := Nat.exists_eq_succ_of_ne_zero (n := fuel) (by omega)
    rw [Verbatim.readFields_of_readString (Verbatim.readString_of_split split) mark,
      spells.readsVerbatim hends (by omega), Option.bind_some]
    dsimp only
    rw [closed]
    rfl
  | _, _, _, @SpellsMembers.more _ left next after _ members
      (@SpellsMember.mk s colon rest _ source name value split mark spells _) comma others,
      fuel, hfuel => by
    obtain ⟨hends, hlength, hlt⟩ := spells.lengths_of_mark comma (by decide)
    have hname := length_lt_of_name split mark
    have hnext := length_skipSpace_le next
    have hothers := others.length_lt
    rw [List.length_cons] at hfuel
    obtain ⟨fuel, rfl⟩ := Nat.exists_eq_succ_of_ne_zero (n := fuel) (by omega)
    have hread : Verbatim.readFields fuel (skipSpace next) = some (verbatimMembers members, after) :=
      others.readsVerbatim (by omega)
    rw [Verbatim.readFields_of_readString (Verbatim.readString_of_split split) mark,
      spells.readsVerbatim hends (by omega), Option.bind_some]
    dsimp only
    rw [comma]
    show (Verbatim.readFields fuel (skipSpace next)).bind _ = _
    rw [hread]
    rfl

end

/-! ### Texts -/

theorem Text.trimRight_of_last {d : Char} (hd : Text.isBlank d = false) (front : List Char)
    {rest : List Char} (hrest : rest.all isSpace = true) :
    Text.trimRight (front ++ d :: rest) = front ++ [d] := by
  have hblank : ∀ c ∈ rest.reverse, Text.isBlank c = true := fun c hc =>
    isBlank_of_isSpace (List.all_eq_true.1 hrest c (List.mem_reverse.1 hc))
  have hreverse : (front ++ d :: rest).reverse = rest.reverse ++ d :: front.reverse := by simp
  rw [Text.trimRight, hreverse, List.dropWhile_append_of_pos hblank, List.dropWhile_cons_of_neg]
  · simp
  · rw [hd]
    exact Bool.false_ne_true

/-- **Every JSON text can be read verbatim.** -/
theorem Verbatim.read?_of_denotes {text : String} {tree : Written} (h : Denotes text tree) :
    Verbatim.read? text = some tree.verbatim := by
  obtain ⟨gap, body, rest, htext, hrest, hmove⟩ := h.exists_body
  have hends : Ends rest := ends_of_all_isSpace hrest
  obtain ⟨hskip, hspells⟩ := hmove rest hends
  have htrim : Text.trim text.toList = body := by
    obtain ⟨c, tail, hcons, hc⟩ := hspells.exists_cons
    obtain ⟨front, d, hlast, hd⟩ := hspells.exists_last hends
    have happend : body ++ rest = (front ++ [d]) ++ rest := by
      rw [← hskip, hlast, List.append_assoc]
      rfl
    have hbody : body = front ++ [d] := List.append_cancel_right happend
    rw [Text.trim, htext, Text.trimLeft_of_skipSpace hcons hc, hlast,
      Text.trimRight_of_last hd front hrest, hbody]
  obtain ⟨hskip, hspells⟩ := hmove [] rfl
  rw [hskip, List.append_nil] at hspells
  have hread : Verbatim.readValue (2 * body.length + 2) body = some (tree.verbatim, []) :=
    hspells.readsVerbatim rfl (by omega)
  rw [read?, htrim]
  dsimp only
  rw [hread]
  rfl

end Rulebook
