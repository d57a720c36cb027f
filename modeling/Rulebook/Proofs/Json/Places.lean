import Rulebook.Proofs.Json.RoundTrip
import Rulebook.Proofs.Json.Written

/-!
# Values in other places

What a value is spelled with does not depend on what follows it: the characters that it takes up can
be put in front of any text that does not prolong a numeral (`Spells.takesUp`). So the text of a value
can be put under a name: `Denotes.singleton`.
-/

namespace Rulebook.Json

variable {s rest after : List Char}

/-! ### Numerals -/

/-- A text without digits at its start has none in front of another text that has none there. -/
theorem splitWhole_append_eq_none (hrest : Ends rest) (h : splitWhole s = none) :
    splitWhole (s ++ rest) = none := by
  cases s with
  | nil =>
    cases rest with
    | nil => rfl
    | cons c rest =>
      have hdigit : c.isDigit = false := hrest.digit
      rw [List.nil_append, splitWhole, if_neg (by rw [hdigit]; exact Bool.false_ne_true)]
      exact hrest.head_ne (by decide)
  | cons c s =>
    unfold splitWhole at h
    split at h
    · cases h
    · rename_i hzero heq
      cases heq
      split at h
      · cases h
      · rw [List.cons_append, splitWhole, if_neg ‹_›]
        exact hzero
    · rename_i heq
      cases heq

theorem splitFraction_append_eq_none {bare : Bool} (hrest : Ends rest)
    (h : splitFraction bare s = none) : splitFraction bare (s ++ rest) = none := by
  unfold splitFraction at h
  split at h
  · rename_i tail
    dsimp only at h
    split at h
    · rename_i hdigits
      rw [List.cons_append, splitFraction, takeWhile_append_of_head hrest.digit, if_pos hdigits]
    · cases h
  · cases h

theorem splitExponent_append_eq_none (hrest : Ends rest) (h : splitExponent s = none) :
    splitExponent (s ++ rest) = none := by
  cases s with
  | nil => cases h
  | cons c s =>
    rw [splitExponent] at h
    rw [List.cons_append, splitExponent]
    split at h
    · rename_i hmark
      rw [if_pos hmark]
      dsimp only at h ⊢
      split at h
      · rename_i hdigits
        cases s with
        | nil =>
          -- A sign or a digit would have to come from the text behind.
          have hsign : Decimal.splitSign rest = (false, rest) := by
            unfold Decimal.splitSign
            split
            · exact absurd rfl (hrest.head_ne (d := '-') (by decide))
            · exact absurd rfl (hrest.head_ne (d := '+') (by decide))
            · rfl
          have hnone := takeWhile_append_of_head hrest.digit []
          rw [List.nil_append] at hnone
          rw [List.nil_append, hsign, hnone]
          rfl
        | cons d s =>
          rw [splitSign_append (List.cons_ne_nil d s), takeWhile_append_of_head hrest.digit,
            if_pos hdigits]
      · cases h
    · cases h

/-- What is no numeral does not become one by what follows it. -/
theorem splitNumeral_append_eq_none {bare : Bool} (hs : s ≠ []) (hrest : Ends rest)
    (h : splitNumeral bare s = none) : splitNumeral bare (s ++ rest) = none := by
  unfold splitNumeral at h ⊢
  rw [splitMinus_append hs]
  dsimp only at h ⊢
  cases hwhole : splitWhole (splitMinus s).2 with
  | none =>
    rw [splitWhole_append_eq_none hrest hwhole]
    rfl
  | some found =>
    obtain ⟨whole, s₁⟩ := found
    rw [hwhole] at h
    rw [splitWhole_append hrest hwhole]
    change (splitFraction bare s₁).bind _ = none at h
    show (splitFraction bare (s₁ ++ rest)).bind _ = none
    cases hfraction : splitFraction bare s₁ with
    | none =>
      rw [splitFraction_append_eq_none hrest hfraction]
      rfl
    | some found =>
      obtain ⟨fraction, s₂⟩ := found
      rw [hfraction] at h
      rw [splitFraction_append hrest hfraction]
      change (splitExponent s₂).bind _ = none at h
      show (splitExponent (s₂ ++ rest)).bind _ = none
      cases hexponent : splitExponent s₂ with
      | none =>
        rw [splitExponent_append_eq_none hrest hexponent]
        rfl
      | some found =>
        rw [hexponent] at h
        cases h

/-- The characters of a numeral are a numeral by themselves. -/
theorem splitNumeral_of_append {bare : Bool} {n : Numeral} (hs : s ≠ []) (hrest : Ends rest)
    (h : splitNumeral bare (s ++ rest) = some (n, rest)) : splitNumeral bare s = some (n, []) := by
  cases hsplit : splitNumeral bare s with
  | none =>
    rw [splitNumeral_append_eq_none hs hrest hsplit] at h
    cases h
  | some found =>
    obtain ⟨m, left⟩ := found
    rw [splitNumeral_append hrest hsplit] at h
    obtain ⟨rfl, hleft⟩ := Prod.mk.inj (Option.some.inj h)
    rw [List.append_left_eq_self.1 hleft]

/-! ### Blanks and strings -/

/-- What stands before the first character that is no blank. -/
theorem exists_gap (s : List Char) : ∃ gap, s = gap ++ skipSpace s ∧ gap.all isSpace = true :=
  ⟨s.takeWhile isSpace, List.takeWhile_append_dropWhile.symm, List.all_takeWhile⟩

theorem skipSpace_gap {gap : List Char} (h : gap.all isSpace = true) (s : List Char) :
    skipSpace (gap ++ s) = skipSpace s := by
  rw [List.all_eq_true] at h
  exact List.dropWhile_append_of_pos h

theorem isNumeralPart_of_isSpace {c : Char} (h : isSpace c = true) : isNumeralPart c = false := by
  refine Bool.eq_false_iff.2 fun hpart => ?_
  rw [isSpace_of_isNumeralPart hpart] at h
  exact Bool.false_ne_true h

/-- A numeral ends at a gap, and at the character behind it if there is no gap. -/
theorem ends_gap {gap : List Char} (h : gap.all isSpace = true) {rest : List Char} (hrest : Ends rest) :
    Ends (gap ++ rest) := by
  cases gap with
  | nil => exact hrest
  | cons d gap =>
    rw [List.all_cons, Bool.and_eq_true] at h
    exact ends_cons (isNumeralPart_of_isSpace h.1) _

/-- The inside of a string literal is followed by a quote, and anything may follow that. -/
theorem eq_append_of_splitString {inside : List Char} (h : splitString s = some (inside, after)) :
    s = inside ++ '"' :: after ∧
      ∀ tail, splitString (inside ++ '"' :: tail) = some (inside, tail) := by
  induction s using splitString.induct generalizing inside with
  | case1 => cases h
  | case2 rest =>
    cases h
    exact ⟨rfl, fun tail => rfl⟩
  | case3 c rest ih =>
    obtain ⟨⟨found, left⟩, hfound, heq⟩ := Option.bind_eq_some_iff.1 h
    cases heq
    obtain ⟨hrest, hmove⟩ := ih hfound
    refine ⟨by rw [hrest]; rfl, fun tail => ?_⟩
    show (splitString (found ++ '"' :: tail)).bind _ = _
    rw [hmove]
    rfl
  | case4 c rest hquote hslash ih =>
    rw [splitString] at h
    · obtain ⟨⟨found, left⟩, hfound, heq⟩ := Option.bind_eq_some_iff.1 h
      cases heq
      obtain ⟨hrest, hmove⟩ := ih hfound
      refine ⟨by rw [hrest]; rfl, fun tail => ?_⟩
      have hc : c ≠ '\\' := by
        rintro rfl
        cases rest with
        | nil => cases hfound
        | cons d rest => exact hslash d rest rfl rfl
      rw [List.cons_append, splitString]
      · show (splitString (found ++ '"' :: tail)).bind _ = _
        rw [hmove]
        rfl
      · exact hquote
      · exact fun _ _ heq => absurd heq hc
    · exact hquote
    · exact hslash

/-! ### Values -/

/-- Whether what is spelled takes up the characters of `s` before `after` and is spelled by these in
front of everything that does not prolong a numeral. -/
def TakesUp (spelled : List Char → List Char → Prop) (s after : List Char) : Prop :=
  ∃ c body, s = c :: (body ++ after) ∧ isSpace c = false ∧
    ∀ tail, Ends tail → spelled (c :: (body ++ tail)) tail

/-- A gap before something that is spelled. -/
theorem TakesUp.exists_gap {spelled : List Char → List Char → Prop}
    (h : TakesUp spelled (skipSpace s) after) : ∃ gap body, s = gap ++ (body ++ after) ∧
      ∀ tail, Ends tail → skipSpace (gap ++ (body ++ tail)) = body ++ tail ∧
        spelled (skipSpace (gap ++ (body ++ tail))) tail := by
  obtain ⟨gap, hgap, hblank⟩ := Json.exists_gap s
  obtain ⟨c, body, hbody, hc, hspelled⟩ := h
  have hskip (tail : List Char) : skipSpace (gap ++ (c :: body ++ tail)) = c :: (body ++ tail) := by
    rw [skipSpace_gap hblank, List.cons_append, skipSpace_cons hc]
  refine ⟨gap, c :: body, by rw [List.cons_append, ← hbody, ← hgap], fun tail htail => ?_⟩
  rw [hskip]
  exact ⟨rfl, hspelled tail htail⟩

/-- A gap before a mark that ends a numeral. -/
theorem exists_gap_of_mark {c : Char} (h : skipSpace rest = c :: after)
    (hc : isNumeralPart c = false) : ∃ gap, rest = gap ++ c :: after ∧
      ∀ tail, Ends (gap ++ c :: tail) ∧
        (isSpace c = false → skipSpace (gap ++ c :: tail) = c :: tail) := by
  obtain ⟨gap, hgap, hblank⟩ := exists_gap rest
  refine ⟨gap, by rw [← h, ← hgap], fun tail => ⟨ends_gap hblank (ends_cons hc tail), fun hspace => ?_⟩⟩
  rw [skipSpace_gap hblank, skipSpace_cons hspace]

mutual

theorem Spells.takesUp : ∀ {s after : List Char} {tree : Written}, Spells s tree after → Ends after →
    TakesUp (Spells · tree ·) s after
  | _, _, _, .null, _ => ⟨_, ['u', 'l', 'l'], rfl, by decide, fun _ _ => .null⟩
  | _, _, _, .boolTrue, _ => ⟨_, ['r', 'u', 'e'], rfl, by decide, fun _ _ => .boolTrue⟩
  | _, _, _, .boolFalse, _ => ⟨_, ['a', 'l', 's', 'e'], rfl, by decide, fun _ _ => .boolFalse⟩
  | _, after, _, @Spells.string s _ inside split, _ => by
    obtain ⟨hs, hmove⟩ := eq_append_of_splitString split
    refine ⟨_, inside.chars ++ ['"'], ?_, by decide, fun tail _ => .string ?_⟩
    · rw [hs, List.append_assoc]
      rfl
    · rw [List.append_assoc]
      exact hmove tail
  | _, _, _, .emptyArray closed, _ => by
    obtain ⟨gap, hgap, hmark⟩ := exists_gap_of_mark closed (by decide)
    refine ⟨_, gap ++ [']'], ?_, by decide, fun tail _ => .emptyArray ?_⟩
    · rw [hgap, List.append_assoc]
      rfl
    · rw [List.append_assoc]
      exact (hmark tail).2 (by decide)
  | _, _, _, .array spells, hends => by
    obtain ⟨gap, body, hs, hmove⟩ := (spells.takesUp).exists_gap
    refine ⟨_, gap ++ body, ?_, by decide, fun tail htail => .array ?_⟩
    · rw [hs, List.append_assoc]
    · rw [List.append_assoc]
      exact (hmove tail htail).2
  | _, _, _, .emptyObject closed, _ => by
    obtain ⟨gap, hgap, hmark⟩ := exists_gap_of_mark closed (by decide)
    refine ⟨_, gap ++ ['\x7d'], ?_, by decide, fun tail _ => .emptyObject ?_⟩
    · rw [hgap, List.append_assoc]
      rfl
    · rw [List.append_assoc]
      exact (hmark tail).2 (by decide)
  | _, _, _, .object spells, hends => by
    obtain ⟨gap, body, hs, hmove⟩ := (spells.takesUp).exists_gap
    refine ⟨_, gap ++ body, ?_, by decide, fun tail htail => .object ?_⟩
    · rw [hs, List.append_assoc]
    · rw [List.append_assoc]
      exact (hmove tail htail).2
  | _, _, _, @Spells.numeral s after n split, hends => by
    obtain ⟨body, rfl⟩ := splitNumeral_suffix split
    have hbody : body ≠ [] := by
      rintro rfl
      obtain ⟨c, tail, hs, hc⟩ := exists_cons_of_splitNumeral split
      rw [List.nil_append] at hs
      exact (hs ▸ hends).head_ne hc rfl
    have hsplit := splitNumeral_of_append hbody hends split
    obtain ⟨c, tail, rfl, hc⟩ := exists_cons_of_splitNumeral hsplit
    refine ⟨c, tail, rfl, isSpace_of_isNumeralPart hc, fun rest hrest => .numeral ?_⟩
    rw [← List.cons_append, splitNumeral_append hrest hsplit, List.nil_append]

theorem SpellsItems.takesUp : ∀ {s after : List Char} {items : List Written},
    SpellsItems s items after → TakesUp (SpellsItems · items ·) s after
  | _, _, _, .last spells closed => by
    obtain ⟨gap, hgap, hmark⟩ := exists_gap_of_mark closed (by decide)
    obtain ⟨c, body, hs, hc, hmove⟩ := spells.takesUp (hgap ▸ (hmark _).1)
    refine ⟨c, body ++ (gap ++ [']']), ?_, hc, fun tail _ => ?_⟩
    · rw [hs, hgap]
      simp only [List.cons_append, List.append_assoc, List.nil_append]
    · simp only [List.cons_append, List.append_assoc, List.nil_append]
      exact .last (hmove _ (hmark tail).1) ((hmark tail).2 (by decide))
  | _, _, _, .more spells comma others => by
    obtain ⟨gap, hgap, hmark⟩ := exists_gap_of_mark comma (by decide)
    obtain ⟨c, body, hs, hc, hmove⟩ := spells.takesUp (hgap ▸ (hmark _).1)
    obtain ⟨gap', body', hs', hmove'⟩ := others.takesUp.exists_gap
    refine ⟨c, body ++ (gap ++ ',' :: (gap' ++ body')), ?_, hc, fun tail htail => ?_⟩
    · rw [hs, hgap, hs']
      simp only [List.cons_append, List.append_assoc]
    · simp only [List.cons_append, List.append_assoc]
      exact .more (hmove _ (hmark _).1) ((hmark _).2 (by decide)) (hmove' tail htail).2

theorem SpellsMember.takesUp : ∀ {s after : List Char} {member : Member},
    SpellsMember s member after → Ends after → TakesUp (SpellsMember · member ·) s after
  | _, _, _, @SpellsMember.mk s colon rest after source name value split mark spells written, hends => by
    obtain ⟨hs, hstring⟩ := eq_append_of_splitString split
    obtain ⟨gap, hgap, hmark⟩ := exists_gap_of_mark mark (by decide)
    obtain ⟨gap', body, hrest, hmove⟩ := (spells.takesUp hends).exists_gap
    have hbody : body = source := by
      have hskip := (hmove after hends).1
      rw [← hrest, written] at hskip
      exact (List.append_cancel_right hskip).symm
    refine ⟨'"', name.chars ++ '"' :: (gap ++ ':' :: (gap' ++ body)), ?_, by decide,
      fun tail htail => ?_⟩
    · rw [hs, hgap, hrest]
      simp only [List.cons_append, List.append_assoc]
    · obtain ⟨hskip, hspells⟩ := hmove tail htail
      simp only [List.cons_append, List.append_assoc]
      exact .mk (hstring _) ((hmark _).2 (by decide)) hspells (hbody ▸ hskip)

theorem SpellsMembers.takesUp : ∀ {s after : List Char} {members : List Member},
    SpellsMembers s members after → TakesUp (SpellsMembers · members ·) s after
  | _, _, _, .last spells closed => by
    obtain ⟨gap, hgap, hmark⟩ := exists_gap_of_mark closed (by decide)
    obtain ⟨c, body, hs, hc, hmove⟩ := spells.takesUp (hgap ▸ (hmark _).1)
    refine ⟨c, body ++ (gap ++ ['\x7d']), ?_, hc, fun tail _ => ?_⟩
    · rw [hs, hgap]
      simp only [List.cons_append, List.append_assoc, List.nil_append]
    · simp only [List.cons_append, List.append_assoc, List.nil_append]
      exact .last (hmove _ (hmark tail).1) ((hmark tail).2 (by decide))
  | _, _, _, .more spells comma others => by
    obtain ⟨gap, hgap, hmark⟩ := exists_gap_of_mark comma (by decide)
    obtain ⟨c, body, hs, hc, hmove⟩ := spells.takesUp (hgap ▸ (hmark _).1)
    obtain ⟨gap', body', hs', hmove'⟩ := others.takesUp.exists_gap
    refine ⟨c, body ++ (gap ++ ',' :: (gap' ++ body')), ?_, hc, fun tail htail => ?_⟩
    · rw [hs, hgap, hs']
      simp only [List.cons_append, List.append_assoc]
    · simp only [List.cons_append, List.append_assoc]
      exact .more (hmove _ (hmark _).1) ((hmark _).2 (by decide)) (hmove' tail htail).2

end

/-! ### The ends of a value -/

/-- Items end with their closing bracket. -/
theorem SpellsItems.exists_closing : ∀ {s after : List Char} {items : List Written},
    SpellsItems s items after → ∃ front, s = front ++ ']' :: after
  | _, _, _, .last spells closed => by
    obtain ⟨gap, hgap, hmark⟩ := exists_gap_of_mark closed (by decide)
    obtain ⟨c, body, hs, -⟩ := spells.takesUp (hgap ▸ (hmark _).1)
    exact ⟨c :: (body ++ gap), by rw [hs, hgap, List.cons_append, List.append_assoc]⟩
  | _, _, _, @SpellsItems.more _ _ next _ _ _ spells comma others => by
    obtain ⟨gap, hgap, hmark⟩ := exists_gap_of_mark comma (by decide)
    obtain ⟨c, body, hs, -⟩ := spells.takesUp (hgap ▸ (hmark _).1)
    obtain ⟨front, hfront⟩ := others.exists_closing
    obtain ⟨gap', hgap', -⟩ := exists_gap next
    refine ⟨c :: (body ++ (gap ++ ',' :: (gap' ++ front))), ?_⟩
    rw [hs, hgap, hgap', hfront]
    simp only [List.cons_append, List.append_assoc]

/-- Members end with their closing brace. -/
theorem SpellsMembers.exists_closing : ∀ {s after : List Char} {members : List Member},
    SpellsMembers s members after → ∃ front, s = front ++ '\x7d' :: after
  | _, _, _, .last spells closed => by
    obtain ⟨gap, hgap, hmark⟩ := exists_gap_of_mark closed (by decide)
    obtain ⟨c, body, hs, -⟩ := spells.takesUp (hgap ▸ (hmark _).1)
    exact ⟨c :: (body ++ gap), by rw [hs, hgap, List.cons_append, List.append_assoc]⟩
  | _, _, _, @SpellsMembers.more _ _ next _ _ _ spells comma others => by
    obtain ⟨gap, hgap, hmark⟩ := exists_gap_of_mark comma (by decide)
    obtain ⟨c, body, hs, -⟩ := spells.takesUp (hgap ▸ (hmark _).1)
    obtain ⟨front, hfront⟩ := others.exists_closing
    obtain ⟨gap', hgap', -⟩ := exists_gap next
    refine ⟨c :: (body ++ (gap ++ ',' :: (gap' ++ front))), ?_⟩
    rw [hs, hgap, hgap', hfront]
    simp only [List.cons_append, List.append_assoc]

/-- No numeral ends with a blank. -/
theorem exists_last_of_splitNumeral {bare : Bool} {n : Numeral} (hrest : Ends rest)
    (h : splitNumeral bare s = some (n, rest)) :
    ∃ front d, s = front ++ d :: rest ∧ Text.isBlank d = false := by
  obtain ⟨body, rfl⟩ := splitNumeral_suffix h
  obtain rfl | ⟨front, d, hbody⟩ := List.eq_nil_or_concat body
  · obtain ⟨c, tail, hs, hc⟩ := exists_cons_of_splitNumeral h
    rw [List.nil_append] at hs
    exact absurd rfl ((hs ▸ hrest).head_ne hc)
  rw [List.concat_eq_append] at hbody
  subst hbody
  refine ⟨front, d, List.append_assoc _ _ _, Bool.eq_false_iff.2 fun hblank => ?_⟩
  have hends : Ends (d :: rest) := ends_cons (Bool.eq_false_iff.2 fun hpart => by
    rw [isBlank_of_isNumeralPart hpart] at hblank
    cases hblank) rest
  rw [List.append_assoc, List.singleton_append] at h
  -- Without the blank it would be the same numeral.
  cases hsplit : splitNumeral bare front with
  | none =>
    have hfront : front ≠ [] := by
      rintro rfl
      obtain ⟨c, tail, hs, hc⟩ := exists_cons_of_splitNumeral h
      rw [List.nil_append] at hs
      exact absurd rfl ((hs ▸ hends).head_ne hc)
    rw [splitNumeral_append_eq_none hfront hends hsplit] at h
    cases h
  | some found =>
    obtain ⟨m, left⟩ := found
    rw [splitNumeral_append hends hsplit] at h
    have hlength := congrArg (fun found => (found.map (·.2.length))) h
    simp at hlength
    omega

/-- No value ends with a blank. -/
theorem Spells.exists_last {tree : Written} (h : Spells s tree after) (hends : Ends after) :
    ∃ front d, s = front ++ d :: after ∧ Text.isBlank d = false := by
  cases h with
  | null => exact ⟨['n', 'u', 'l'], 'l', rfl, by decide⟩
  | boolTrue => exact ⟨['t', 'r', 'u'], 'e', rfl, by decide⟩
  | boolFalse => exact ⟨['f', 'a', 'l', 's'], 'e', rfl, by decide⟩
  | @string s _ inside split =>
    obtain ⟨hs, -⟩ := eq_append_of_splitString split
    exact ⟨'"' :: inside.chars, '"', by rw [hs]; rfl, by decide⟩
  | emptyArray closed =>
    obtain ⟨gap, hgap, -⟩ := exists_gap_of_mark closed (by decide)
    exact ⟨'[' :: gap, ']', by rw [hgap]; rfl, by decide⟩
  | @array s _ _ spells =>
    obtain ⟨front, hfront⟩ := spells.exists_closing
    obtain ⟨gap, hgap, -⟩ := exists_gap s
    refine ⟨'[' :: (gap ++ front), ']', ?_, by decide⟩
    rw [hgap, hfront, List.cons_append, List.append_assoc]
  | emptyObject closed =>
    obtain ⟨gap, hgap, -⟩ := exists_gap_of_mark closed (by decide)
    exact ⟨'\x7b' :: gap, '\x7d', by rw [hgap]; rfl, by decide⟩
  | @object s _ _ spells =>
    obtain ⟨front, hfront⟩ := spells.exists_closing
    obtain ⟨gap, hgap, -⟩ := exists_gap s
    refine ⟨'\x7b' :: (gap ++ front), '\x7d', ?_, by decide⟩
    rw [hgap, hfront, List.cons_append, List.append_assoc]
  | numeral split => exact exists_last_of_splitNumeral hends split

/-! ### Texts -/

theorem all_isSpace_of_skipSpace_eq_nil (h : skipSpace rest = []) : rest.all isSpace = true := by
  obtain ⟨gap, hgap, hblank⟩ := exists_gap rest
  rwa [hgap, h, List.append_nil]

theorem ends_of_all_isSpace (h : rest.all isSpace = true) : Ends rest := by
  have hends : Ends (rest ++ []) := ends_gap h rfl
  rwa [List.append_nil] at hends

theorem ends_of_skipSpace_eq_nil (h : skipSpace rest = []) : Ends rest :=
  ends_of_all_isSpace (all_isSpace_of_skipSpace_eq_nil h)

/-- A text with a structure is what spells the structure, with blanks around it. -/
theorem Denotes.exists_body {text : String} {tree : Written} (h : Denotes text tree) :
    ∃ gap body rest, text.toList = gap ++ (body ++ rest) ∧ rest.all isSpace = true ∧
      ∀ tail, Ends tail → skipSpace (gap ++ (body ++ tail)) = body ++ tail ∧
        Spells (skipSpace (gap ++ (body ++ tail))) tree tail := by
  obtain ⟨rest, hspells, hrest⟩ := h
  obtain ⟨gap, body, htext, hmove⟩ := (hspells.takesUp (ends_of_skipSpace_eq_nil hrest)).exists_gap
  exact ⟨gap, body, rest, htext, all_isSpace_of_skipSpace_eq_nil hrest, hmove⟩

/-- The text of an object with one member. -/
def singleton (name text : String) : String := "\x7b" ++ quote name ++ ":" ++ text ++ "\x7d"

/-- A text under a name is an object with one member, which has the structure of the text. -/
theorem Denotes.singleton {text : String} {tree : Written} (h : Denotes text tree) (name : String) :
    ∃ inside : Inside, decode inside.chars = some name.toList ∧
      ∃ source, Denotes (Json.singleton name text) (.object [(inside, source, tree)]) := by
  obtain ⟨gap, body, rest, htext, hrest, hmove⟩ := h.exists_body
  obtain ⟨hskip, hspells⟩ := hmove (rest ++ ['\x7d']) (ends_gap hrest (ends_cons (by decide) []))
  have hvalue : text.toList ++ ['\x7d'] = gap ++ (body ++ (rest ++ ['\x7d'])) := by
    rw [htext]
    simp only [List.append_assoc]
  have hclosed : skipSpace (rest ++ ['\x7d']) = ['\x7d'] := skipSpace_gap hrest ['\x7d']
  have hread := readString_escape name (':' :: (text.toList ++ ['\x7d']))
  obtain ⟨⟨chars, left⟩, hsplit, hread⟩ := Option.bind_eq_some_iff.1 hread
  obtain ⟨decoded, hdecode, hread⟩ := Option.bind_eq_some_iff.1 hread
  obtain ⟨hname, rfl⟩ := Prod.mk.inj (Option.some.inj hread)
  have htoList : (Json.singleton name text).toList =
      '\x7b' :: '"' :: (name.toList.flatMap escapeChar ++ '"' :: ':' :: (text.toList ++ ['\x7d'])) := by
    rw [Json.singleton]
    simp only [String.toList_append, toList_quote]
    simp
  refine ⟨⟨chars, (decode_bounds hdecode).1⟩, ?_, body, [], ?_, rfl⟩
  · rw [hdecode, ← hname, String.toList_ofList]
  · rw [htoList]
    exact .object (.last (.mk hsplit rfl (hvalue ▸ hspells) (hvalue ▸ hskip)) hclosed)

end Rulebook.Json
