import Rulebook.Json.Printer
import Rulebook.Json.Reader
import Rulebook.Proofs.Text.Runs

/-!
# Written numbers and strings

What the reader of JSON makes of a number or a string that stands, as the printer writes it, in front
of other text. A number ends where a character follows that no numeral has; about doubles it is only
assumed that they are read back from their own text.
-/

namespace Rulebook.Json

/-- The characters that numerals are written with. -/
def isNumeralPart (c : Char) : Bool := c.isDigit || ['.', 'e', 'E', '+', '-'].contains c

/-- Whether a numeral in front of a text ends there. -/
def Ends (rest : List Char) : Prop := rest.head?.any isNumeralPart = false

theorem ends_cons {c : Char} (h : isNumeralPart c = false) (rest : List Char) : Ends (c :: rest) := h

theorem Ends.any_eq_false {rest : List Char} (h : Ends rest) {p : Char → Bool}
    (hp : ∀ c, p c = true → isNumeralPart c = true) : rest.head?.any p = false := by
  cases rest with
  | nil => rfl
  | cons c rest =>
    rw [Ends, List.head?_cons, Option.any_some] at h
    rw [List.head?_cons, Option.any_some, Bool.eq_false_iff]
    intro hc
    rw [hp c hc] at h
    cases h

theorem Ends.digit {rest : List Char} (h : Ends rest) : rest.head?.any Char.isDigit = false :=
  h.any_eq_false fun c hc => by rw [isNumeralPart, hc, Bool.true_or]

theorem Ends.head_ne {c : Char} {rest : List Char} (h : Ends (c :: rest)) {d : Char}
    (hd : isNumeralPart d = true) : c ≠ d := by
  rintro rfl
  rw [Ends, List.head?_cons, Option.any_some, hd] at h
  cases h

/-! ### The parts of a numeral -/

/-- A sign in front of a text does not depend on what follows that. -/
theorem splitSign_append {s : List Char} (hs : s ≠ []) (rest : List Char) :
    Decimal.splitSign (s ++ rest) =
      ((Decimal.splitSign s).1, (Decimal.splitSign s).2 ++ rest) := by
  unfold Decimal.splitSign
  cases s with
  | nil => exact absurd rfl hs
  | cons d s =>
    rw [List.cons_append]
    split
    · rename_i heq
      cases heq
      rfl
    · rename_i heq
      cases heq
      rfl
    · rename_i hminus hplus
      split
      · rename_i heq
        cases heq
        exact absurd rfl (hminus _)
      · rename_i heq
        cases heq
        exact absurd rfl (hplus _)
      · rfl

theorem splitMinus_append {s : List Char} (hs : s ≠ []) (rest : List Char) :
    splitMinus (s ++ rest) = ((splitMinus s).1, (splitMinus s).2 ++ rest) := by
  cases s with
  | nil => exact absurd rfl hs
  | cons c s =>
    rw [List.cons_append]
    unfold splitMinus
    split
    · rename_i heq
      cases heq
      rfl
    · rename_i hne
      split
      · rename_i heq
        cases heq
        exact absurd rfl (hne _)
      · rfl

section

variable {s rest after : List Char} (hrest : Ends rest)

include hrest

theorem splitWhole_append {whole : List Char} (h : splitWhole s = some (whole, after)) :
    splitWhole (s ++ rest) = some (whole, after ++ rest) := by
  unfold splitWhole at h
  split at h
  · cases h
    rfl
  · rename_i c tail hzero
    split at h
    · rename_i hdigit
      cases h
      have htake := takeWhile_append_of_head hrest.digit (c :: tail)
      have hdrop := dropWhile_append_of_head hrest.digit (c :: tail)
      rw [List.cons_append] at htake hdrop ⊢
      rw [splitWhole, if_pos hdigit, htake, hdrop]
      exact hzero
    · cases h
  · cases h

theorem splitFraction_append {bare : Bool} {fraction : Option (List Char)}
    (h : splitFraction bare s = some (fraction, after)) :
    splitFraction bare (s ++ rest) = some (fraction, after ++ rest) := by
  unfold splitFraction at h
  split at h
  · rename_i tail
    have htake := takeWhile_append_of_head hrest.digit tail
    have hdrop := dropWhile_append_of_head hrest.digit tail
    rw [List.cons_append, splitFraction, htake, hdrop]
    dsimp only at h
    split at h
    · cases h
    · rename_i hdigits
      cases h
      rw [if_neg hdigits]
  · rename_i hpoint
    cases h
    cases s with
    | nil =>
      cases rest with
      | nil => rfl
      | cons c rest =>
        rw [List.nil_append, splitFraction]
        intro tail heq
        exact hrest.head_ne (by decide) (List.cons.inj heq).1
    | cons c s =>
      rw [List.cons_append, splitFraction]
      intro tail heq
      exact hpoint s (congrArg (· :: s) (List.cons.inj heq).1)

theorem splitExponent_append {exponent : Option Int}
    (h : splitExponent s = some (exponent, after)) :
    splitExponent (s ++ rest) = some (exponent, after ++ rest) := by
  cases s with
  | nil =>
    cases h
    cases rest with
    | nil => rfl
    | cons c rest =>
      have hmark : ¬(c = 'e' ∨ c = 'E') := not_or.2
        ⟨hrest.head_ne (by decide), hrest.head_ne (by decide)⟩
      rw [List.nil_append, splitExponent, if_neg hmark]
  | cons c s =>
    rw [splitExponent] at h
    rw [List.cons_append, splitExponent]
    split at h
    · rename_i hmark
      have hs : s ≠ [] := by
        rintro rfl
        cases h
      rw [if_pos hmark, splitSign_append hs]
      dsimp only at h ⊢
      rw [takeWhile_append_of_head hrest.digit, dropWhile_append_of_head hrest.digit]
      split at h
      · cases h
      · rename_i hdigits
        cases h
        rw [if_neg hdigits]
    · rename_i hmark
      cases h
      rw [if_neg hmark]
      rfl

/-- A numeral does not depend on what follows it. -/
theorem splitNumeral_append {bare : Bool} {numeral : Numeral}
    (h : splitNumeral bare s = some (numeral, after)) :
    splitNumeral bare (s ++ rest) = some (numeral, after ++ rest) := by
  have hs : s ≠ [] := by
    rintro rfl
    cases h
  simp only [splitNumeral, Option.bind_eq_bind, Option.bind_eq_some_iff] at h
  obtain ⟨⟨whole, s₁⟩, hwhole, ⟨fraction, s₂⟩, hfraction, ⟨exponent, s₃⟩, hexponent, heq⟩ := h
  cases heq
  unfold splitNumeral
  rw [splitMinus_append hs]
  dsimp only
  rw [splitWhole_append hrest hwhole]
  show (splitFraction bare (s₁ ++ rest)).bind _ = _
  rw [splitFraction_append hrest hfraction]
  show (splitExponent (s₂ ++ rest)).bind _ = _
  rw [splitExponent_append hrest hexponent]
  rfl

end

/-! ### What follows a numeral -/

section

variable {s after : List Char}

theorem splitMinus_suffix (s : List Char) : (splitMinus s).2 <:+ s := by
  unfold splitMinus
  split
  · exact List.suffix_cons _ _
  · exact List.suffix_refl _

theorem splitWhole_suffix {whole : List Char} (h : splitWhole s = some (whole, after)) :
    after <:+ s := by
  unfold splitWhole at h
  split at h
  · cases h
    exact List.suffix_cons _ _
  · split at h
    · cases h
      exact List.dropWhile_suffix _
    · cases h
  · cases h

theorem splitFraction_suffix {bare : Bool} {fraction : Option (List Char)}
    (h : splitFraction bare s = some (fraction, after)) : after <:+ s := by
  unfold splitFraction at h
  split at h
  · dsimp only at h
    split at h
    · cases h
    · cases h
      exact (List.dropWhile_suffix _).trans (List.suffix_cons _ _)
  · cases h
    exact List.suffix_refl _

theorem splitSign_suffix (s : List Char) : (Decimal.splitSign s).2 <:+ s := by
  unfold Decimal.splitSign
  split
  · exact List.suffix_cons _ _
  · exact List.suffix_cons _ _
  · exact List.suffix_refl _

theorem splitExponent_suffix {exponent : Option Int}
    (h : splitExponent s = some (exponent, after)) : after <:+ s := by
  unfold splitExponent at h
  split at h
  · split at h
    · dsimp only at h
      split at h
      · cases h
      · cases h
        exact ((List.dropWhile_suffix _).trans (splitSign_suffix _)).trans (List.suffix_cons _ _)
    · cases h
      exact List.suffix_refl _
  · cases h
    exact List.suffix_refl _

theorem splitNumeral_suffix {bare : Bool} {numeral : Numeral}
    (h : splitNumeral bare s = some (numeral, after)) : after <:+ s := by
  simp only [splitNumeral, Option.bind_eq_bind, Option.bind_eq_some_iff] at h
  obtain ⟨⟨whole, s₁⟩, hwhole, ⟨fraction, s₂⟩, hfraction, ⟨exponent, s₃⟩, hexponent, heq⟩ := h
  cases heq
  exact (splitExponent_suffix hexponent).trans ((splitFraction_suffix hfraction).trans
    ((splitWhole_suffix hwhole).trans (splitMinus_suffix s)))

/-- A numeral begins with a digit or a sign. -/
theorem exists_cons_of_splitNumeral {bare : Bool} {numeral : Numeral}
    (h : splitNumeral bare s = some (numeral, after)) :
    ∃ c tail, s = c :: tail ∧ isNumeralPart c = true := by
  simp only [splitNumeral, Option.bind_eq_bind, Option.bind_eq_some_iff] at h
  obtain ⟨⟨whole, s₁⟩, hwhole, -⟩ := h
  cases s with
  | nil => cases hwhole
  | cons c tail =>
    refine ⟨c, tail, rfl, ?_⟩
    by_cases hc : c = '-'
    · subst hc
      rfl
    · have hminus : splitMinus (c :: tail) = (false, c :: tail) := by
        rw [splitMinus]
        intro rest heq
        exact hc (List.cons.inj heq).1
      rw [hminus] at hwhole
      unfold splitWhole at hwhole
      split at hwhole
      · rename_i heq
        cases heq
        rfl
      · rename_i heq
        cases heq
        split at hwhole
        · rename_i hdigit
          rw [isNumeralPart, hdigit, Bool.true_or]
        · cases hwhole
      · cases hwhole

/-- Where a point must be followed by digits, the literal is the same where it need not. -/
theorem splitNumeral_of_strict (bare : Bool) {numeral : Numeral}
    (h : splitNumeral false s = some (numeral, after)) :
    splitNumeral bare s = some (numeral, after) := by
  have hfraction {s : List Char} {found : Option (List Char) × List Char}
      (h : splitFraction false s = some found) : splitFraction bare s = some found := by
    unfold splitFraction at h ⊢
    split at h
    · dsimp only at h ⊢
      split at h
      · cases h
      · rename_i hdigits
        rw [Bool.and_eq_true, Bool.not_false] at hdigits
        rw [if_neg fun hbare => hdigits ⟨(Bool.and_eq_true_iff.1 hbare).1, rfl⟩]
        exact h
    · exact h
  simp only [splitNumeral, Option.bind_eq_bind, Option.bind_eq_some_iff] at h ⊢
  obtain ⟨whole, hwhole, fraction, hsplit, exponent⟩ := h
  exact ⟨whole, hwhole, fraction, hfraction hsplit, exponent⟩

/-- No character of a numeral is a blank. -/
theorem isBlank_of_isNumeralPart {c : Char} (h : isNumeralPart c = true) :
    Text.isBlank c = false := by
  rw [isNumeralPart, Bool.or_eq_true] at h
  rcases h with hdigit | hmark
  · have hrange : 48 ≤ c.toNat ∧ c.toNat ≤ 57 := by
      simp only [Char.isDigit, Bool.and_eq_true, decide_eq_true_eq] at hdigit
      exact hdigit
    have hspace : c ≠ ' ' := by
      rintro rfl
      exact absurd hrange.1 (by decide)
    rw [Text.isBlank, if_pos (by omega), Bool.or_eq_false_iff]
    refine ⟨beq_eq_false_iff_ne.2 hspace, ?_⟩
    simp only [Bool.and_eq_false_iff, decide_eq_false_iff_not]
    omega
  · have hmem := List.contains_iff_mem.1 hmark
    simp only [List.mem_cons, List.not_mem_nil, or_false] at hmem
    rcases hmem with rfl | rfl | rfl | rfl | rfl <;> decide

end

/-! ### Numbers -/

theorem skipSpace_cons {c : Char} (hc : isSpace c = false) (s : List Char) :
    skipSpace (c :: s) = c :: s := by
  rw [skipSpace, List.dropWhile_cons, if_neg (by simp [hc])]

theorem isSpace_of_isNumeralPart {c : Char} (hc : isNumeralPart c = true) : isSpace c = false := by
  rw [Bool.eq_false_iff]
  intro h
  simp only [isSpace, Bool.or_eq_true, beq_iff_eq] at h
  rcases h with ((rfl | rfl) | rfl) | rfl <;> exact absurd hc (by decide)

/-- A value that begins like a numeral is one. -/
theorem readValue_numeral {c : Char} (hc : isNumeralPart c = true) (fuel depth : Nat)
    (s : List Char) : readValue (fuel + 1) depth (c :: s) = (do
      let (numeral, after) ← splitNumeral false (c :: s)
      let value ← ofNumeral numeral
      return (value, after)) := by
  rw [readValue, skipSpace_cons (isSpace_of_isNumeralPart hc)]
  split
  all_goals first
    | rfl
    | rename_i heq
      cases heq
      exact absurd hc (by decide)

theorem readValue_of_splitNumeral {s rest : List Char} {numeral : Numeral} {value : Json}
    (h : splitNumeral false s = some (numeral, [])) (hvalue : ofNumeral numeral = some value)
    (hrest : Ends rest) (fuel depth : Nat) :
    readValue (fuel + 1) depth (s ++ rest) = some (value, rest) := by
  have happend := splitNumeral_append hrest h
  obtain ⟨c, tail, rfl, hc⟩ := exists_cons_of_splitNumeral h
  rw [List.cons_append] at happend ⊢
  rw [readValue_numeral hc, happend]
  show (ofNumeral numeral).bind _ = _
  rw [hvalue]
  rfl

/-- The digits of a number begin with a zero only if the number is zero. -/
theorem exists_toDigits_eq_cons (n : Nat) : ∃ c rest, Nat.toDigits 10 n = c :: rest ∧
    c.isDigit = true ∧ (c = '0' → n = 0) := by
  induction n using Nat.strongRecOn with
  | _ n ih =>
    by_cases hn : n < 10
    · refine ⟨Nat.digitChar n, [], Nat.toDigits_of_lt_base hn, ?_, ?_⟩
      · have : ∀ d < 10, (Nat.digitChar d).isDigit = true := by decide
        exact this n hn
      · have : ∀ d < 10, Nat.digitChar d = '0' → d = 0 := by decide
        exact this n hn
    · obtain ⟨c, rest, heq, hdigit, hzero⟩ := ih (n / 10) (by omega)
      refine ⟨c, rest ++ [Nat.digitChar (n % 10)], ?_, hdigit, fun hc => ?_⟩
      · rw [Nat.toDigits_of_base_le (by decide) (by omega), heq, List.cons_append]
      · have := hzero hc
        omega

theorem all_isDigit_toDigits (n : Nat) : (Nat.toDigits 10 n).all Char.isDigit = true :=
  List.all_eq_true.2 fun _ hd => Nat.isDigit_of_mem_toDigits (by decide) (by decide) hd

theorem splitWhole_toDigits (n : Nat) :
    splitWhole (Nat.toDigits 10 n) = some (Nat.toDigits 10 n, []) := by
  have hall := all_isDigit_toDigits n
  obtain ⟨c, rest, heq, hdigit, hzero⟩ := exists_toDigits_eq_cons n
  by_cases hc : c = '0'
  · rw [hzero hc]
    rfl
  · rw [heq] at hall ⊢
    rw [splitWhole, if_pos hdigit, takeWhile_of_all hall, dropWhile_of_all hall]
    exact hc

theorem splitMinus_toDigits (n : Nat) :
    splitMinus (Nat.toDigits 10 n) = (false, Nat.toDigits 10 n) := by
  obtain ⟨c, rest, heq, hdigit, -⟩ := exists_toDigits_eq_cons n
  rw [heq, splitMinus]
  intro rest' h
  rw [(List.cons.inj h).1] at hdigit
  exact absurd hdigit (by decide)

theorem splitNumeral_integer (n : Int) : splitNumeral false (toString n).toList =
    some (⟨decide (n < 0), Nat.toDigits 10 n.natAbs, none, none⟩, []) := by
  cases n with
  | ofNat k =>
    have htext : (toString (Int.ofNat k)).toList = Nat.toDigits 10 k := by
      show (Nat.repr k).toList = _
      rw [Nat.repr_eq_ofList_toDigits, String.toList_ofList]
    have hsign : decide (Int.ofNat k < 0) = false := by simp
    rw [htext, hsign, splitNumeral, splitMinus_toDigits]
    show (splitWhole (Nat.toDigits 10 k)).bind _ = _
    rw [splitWhole_toDigits]
    rfl
  | negSucc k =>
    have htext : (toString (Int.negSucc k)).toList = '-' :: Nat.toDigits 10 (k + 1) := by
      show ("-" ++ Nat.repr (k + 1)).toList = _
      simp only [String.toList_append, Nat.repr_eq_ofList_toDigits, String.toList_ofList]
      rfl
    have hsign : decide (Int.negSucc k < 0) = true := by simp [Int.negSucc_lt_zero]
    rw [htext, hsign, splitNumeral]
    show (splitWhole (Nat.toDigits 10 (k + 1))).bind _ = _
    rw [splitWhole_toDigits]
    rfl

theorem ofNumeral_integer {n : Int} (h : -0x8000000000000000 ≤ n ∧ n < 0x10000000000000000) :
    ofNumeral ⟨decide (n < 0), Nat.toDigits 10 n.natAbs, none, none⟩ = some (integer n) := by
  have hdigits : Decimal.natOfDigits (Nat.toDigits 10 n.natAbs) = n.natAbs :=
    Nat.ofDigitChars_toDigits (by decide) (by decide)
  have hint : Numeral.toInt ⟨decide (n < 0), Nat.toDigits 10 n.natAbs, none, none⟩ = n := by
    simp only [Numeral.toInt, hdigits, decide_eq_true_eq]
    omega
  have hzero : (decide (n < 0) && n == 0) = false := by
    simp only [Bool.and_eq_false_iff, decide_eq_false_iff_not, beq_eq_false_iff_ne]
    omega
  unfold ofNumeral
  rw [hint]
  dsimp only
  rw [hzero, decide_eq_true h]
  rfl

/-- A finite double that is read back from its own text. -/
structure ReadsBack (x : Float) : Prop where
  isNumber : x.isNaN = false
  isFinite : x.isInf = false
  reads : read? (Layout.document.render x) = some (.real x)

theorem forall_of_all {s : List Char} (h : s.all isNumeralPart = true) :
    ∀ c ∈ s, isNumeralPart c = true :=
  List.all_eq_true.1 h

theorem isNumeralPart_of_isDigit {c : Char} (h : c.isDigit = true) : isNumeralPart c = true := by
  rw [isNumeralPart, h, Bool.true_or]

theorem all_toDigits (n : Nat) : ∀ c ∈ Nat.toDigits 10 n, isNumeralPart c = true := fun c hc =>
  isNumeralPart_of_isDigit (List.all_eq_true.1 (all_isDigit_toDigits n) c hc)

theorem all_zeros (n : Nat) : ∀ c ∈ List.replicate n '0', isNumeralPart c = true := by
  intro c hc
  rw [List.eq_of_mem_replicate hc]
  rfl

theorem all_positionalText (d : Decimal) :
    ∀ c ∈ (Layout.document.positionalText d).toList, isNumeralPart c = true := by
  have htail := forall_of_all (s := ".0".toList) rfl
  have hzero := forall_of_all (s := "0.".toList) rfl
  have hpoint := forall_of_all (s := ".".toList) rfl
  have hdigits := all_toDigits d.digits
  intro c hc
  unfold Layout.positionalText at hc
  dsimp only at hc
  split at hc
  · simp only [String.toList_append, String.toList_ofList, List.append_assoc, List.mem_append] at hc
    rcases hc with hc | hc | hc
    · exact hdigits c hc
    · exact all_zeros _ c hc
    · exact htail c hc
  split at hc
  · simp only [String.toList_append, String.toList_ofList, List.mem_append] at hc
    rcases hc with hc | hc | hc
    · exact hzero c hc
    · exact all_zeros _ c hc
    · exact hdigits c hc
  · simp only [String.toList_append, String.toList_ofList, List.append_assoc, List.mem_append] at hc
    rcases hc with hc | hc | hc
    · exact hdigits c (List.mem_of_mem_take hc)
    · exact hpoint c hc
    · exact hdigits c (List.mem_of_mem_drop hc)

theorem all_exponentText (d : Decimal) :
    ∀ c ∈ (Layout.document.exponentText d).toList, isNumeralPart c = true := by
  have hmark := forall_of_all (s := "e".toList) rfl
  have hpoint := forall_of_all (s := ".".toList) rfl
  have hdigits := all_toDigits d.digits
  intro c hc
  simp only [Layout.exponentText, String.toList_append, String.toList_ofList, List.append_assoc,
    List.mem_append] at hc
  rcases hc with hc | hc | hc | hc | hc
  · exact hdigits c (List.mem_of_mem_take hc)
  · split at hc
    · cases hc
    · simp only [String.toList_append, String.toList_ofList, List.mem_append] at hc
      exact hc.elim (hpoint c) fun hc => hdigits c (List.mem_of_mem_drop hc)
  · exact hmark c hc
  · have hsign := forall_of_all (s := "-".toList ++ "+".toList) rfl
    refine hsign c (List.mem_append.2 ?_)
    split at hc
    · exact .inl hc
    · exact .inr hc
  · rw [Nat.toString_eq_repr, Nat.repr_eq_ofList_toDigits, String.toList_ofList] at hc
    exact all_toDigits _ c hc

/-- Finite doubles are written with the characters of numerals. -/
theorem all_render {x : Float} (hnumber : x.isNaN = false) (hfinite : x.isInf = false) :
    ∀ c ∈ (Layout.document.render x).toList, isNumeralPart c = true := by
  have hsign (b : Bool) : ∀ c ∈ (if b = true then "-" else "").toList, isNumeralPart c = true := by
    cases b
    · exact forall_of_all rfl
    · exact forall_of_all rfl
  have hzero := forall_of_all (s := "0.0".toList) rfl
  intro c hc
  simp only [Layout.render, hnumber, hfinite, Bool.false_eq_true, if_false] at hc
  split at hc
  · rw [String.toList_append, List.mem_append] at hc
    exact hc.elim (hsign _ c) (hzero c)
  · rw [String.toList_append, List.mem_append] at hc
    refine hc.elim (hsign _ c) fun hc => ?_
    unfold Layout.positiveText at hc
    dsimp only at hc
    split at hc
    · exact all_positionalText _ c hc
    · exact all_exponentText _ c hc

/-- The text of a double that is read back is one numeral. -/
theorem ReadsBack.exists_numeral {x : Float} (h : ReadsBack x) : ∃ numeral,
    splitNumeral false (Layout.document.render x).toList = some (numeral, []) ∧
      ofNumeral numeral = some (real x) := by
  have hall := all_render h.isNumber h.isFinite
  have hread := h.reads
  unfold read? at hread
  dsimp only at hread
  generalize (Layout.document.render x).toList = s at hall hread
  obtain ⟨⟨value, left⟩, hvalue, hread⟩ := Option.bind_eq_some_iff.1 hread
  obtain ⟨hleft, hread⟩ := Option.ite_none_right_eq_some.1 hread
  cases hread
  cases s with
  | nil => cases hvalue
  | cons c s =>
    rw [readValue_numeral (hall c (.head _))] at hvalue
    obtain ⟨⟨numeral, after⟩, hnumeral, hvalue⟩ := Option.bind_eq_some_iff.1 hvalue
    obtain ⟨found, hfound, hvalue⟩ := Option.bind_eq_some_iff.1 hvalue
    cases hvalue
    -- a numeral takes all of a text that holds no blanks
    have hend : left = [] := by
      cases left with
      | nil => rfl
      | cons d left =>
        have hd := hall d ((splitNumeral_suffix hnumeral).subset (.head _))
        rw [skipSpace_cons (isSpace_of_isNumeralPart hd)] at hleft
        cases hleft
    subst hend
    exact ⟨numeral, hnumeral, hfound⟩

/-! ### Strings -/

theorem hexWord?_control : ∀ n < 32, hexWord? '0' '0' (Nat.digitChar (n / 16))
    (Nat.digitChar (n % 16)) = some n := by
  decide

/-- The form of a character in a string holds no quote but behind a backslash. -/
theorem splitString_escapeChar (c : Char) (rest : List Char) :
    splitString (escapeChar c ++ rest) =
      (splitString rest).bind fun (inside, after) => some (escapeChar c ++ inside, after) := by
  have digit : ∀ n < 16, Nat.digitChar n ≠ '"' ∧ Nat.digitChar n ≠ '\\' := by decide
  have plain {d : Char} (hquote : d ≠ '"') (hbackslash : d ≠ '\\') (rest : List Char) :
      splitString (d :: rest) =
        (splitString rest).bind fun (inside, after) => some (d :: inside, after) := by
    rw [splitString]
    · rfl
    · exact hquote
    · intro e rest' hd
      exact absurd hd hbackslash
  unfold escapeChar
  split
  · rfl
  · rfl
  · rfl
  · rfl
  · rfl
  · rfl
  · rfl
  · rename_i hquote hbackslash _ _ _ _ _
    split
    · have high := digit (c.toNat / 16) (by omega)
      have low := digit (c.toNat % 16) (by omega)
      show splitString ('\\' :: 'u' :: '0' :: '0' :: _ :: _ :: rest) = _
      rw [splitString, plain (by decide) (by decide), plain (by decide) (by decide),
        plain high.1 high.2, plain low.1 low.2]
      cases splitString rest <;> rfl
    · exact plain hquote hbackslash rest

/-- The form of a character in a string is read as that character. -/
theorem decode_escapeChar (c : Char) (rest : List Char) :
    decode (escapeChar c ++ rest) = (decode rest).bind fun tail => some (c :: tail) := by
  unfold escapeChar
  split
  · rfl
  · rfl
  · rfl
  · rfl
  · rfl
  · rfl
  · rfl
  · rename_i hbackslash _ _ _ _ _
    split
    · rename_i hsmall
      have hword := hexWord?_control c.toNat hsmall
      have hhigh : ¬(0xd800 ≤ c.toNat ∧ c.toNat < 0xdc00) := by omega
      have hlow : ¬(0xdc00 ≤ c.toNat ∧ c.toNat < 0xe000) := by omega
      simp only [List.cons_append, List.nil_append, decode, hword]
      simp [hhigh, hlow]
    · rename_i hlarge
      rw [List.singleton_append, decode, if_neg hlarge]
      · rfl
      all_goals
        intros
        exact absurd ‹_› hbackslash

/-- A written string is read back. -/
theorem readString_escape (s : String) (rest : List Char) :
    readString (s.toList.flatMap escapeChar ++ '"' :: rest) = some (s, rest) := by
  have hsplit (cs : List Char) : splitString (cs.flatMap escapeChar ++ '"' :: rest) =
      some (cs.flatMap escapeChar, rest) := by
    induction cs with
    | nil => rfl
    | cons c cs ih =>
      rw [List.flatMap_cons, List.append_assoc, splitString_escapeChar, ih]
      rfl
  have hdecode (cs : List Char) : decode (cs.flatMap escapeChar) = some cs := by
    induction cs with
    | nil => rfl
    | cons c cs ih =>
      rw [List.flatMap_cons, decode_escapeChar, ih]
      rfl
  rw [readString, hsplit]
  show (decode (s.toList.flatMap escapeChar)).bind _ = _
  rw [hdecode]
  show some (String.ofList s.toList, rest) = _
  rw [String.ofList_toList]

end Rulebook.Json
