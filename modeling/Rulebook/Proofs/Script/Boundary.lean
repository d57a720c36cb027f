import Mathlib.Tactic.SplitIfs
import Rulebook.Proofs.Text.Runs
import Rulebook.Script.Lexer

/-!
# Tokens at boundaries

A line break or a closing parenthesis is a boundary: no token that stands before it goes on with it.
So a token that ends before a boundary, or at it, is the same whatever stands beyond the boundary
(`token_append`), and each part of a token is (`literal_append`, `templatePiece_append`,
`number_append`, `sign_append`). The ways in which a token is read are said once (`Yields`). Comments end where they end for the same reason
(`afterComment_append`).
-/

namespace Rulebook.Script.Lexer

/-! ### Boundaries -/

/-- A character that goes on no token that stands before it. -/
def isBoundary (c : Char) : Bool := c == '\n' || c == ')'

theorem eq_of_isBoundary {c : Char} (h : isBoundary c) : c = '\n' ∨ c = ')' := by
  rw [isBoundary, Bool.or_eq_true, beq_iff_eq, beq_iff_eq] at h
  exact h

theorem isNamePart_of_isNameStart {c : Char} (h : isNameStart c = true) : isNamePart c = true := by
  simp only [isNameStart, Bool.or_eq_true] at h
  simp only [isNamePart, Char.isAlphanum, Bool.or_eq_true]
  exact h.imp_left .inl

theorem isNamePart_of_isBoundary (c : Char) (h : isBoundary c) : isNamePart c = false := by
  rcases eq_of_isBoundary h with rfl | rfl <;> rfl

theorem isDigit_of_isBoundary (c : Char) (h : isBoundary c) : c.isDigit = false := by
  rcases eq_of_isBoundary h with rfl | rfl <;> rfl

/-- A text that starts with such a character. -/
def Boundary : List Char → Prop
  | [] => False
  | c :: _ => isBoundary c

section

variable {a b : List Char}

/-- A class of characters without boundaries ends at a boundary. -/
theorem Boundary.head?_any {p : Char → Bool} (hp : ∀ c, isBoundary c → p c = false)
    (h : Boundary b) : b.head?.any p = false := by
  cases b with
  | nil => rfl
  | cons c rest => exact hp c h

theorem takeWhile_append_boundary {p : Char → Bool} (hp : ∀ c, isBoundary c → p c = false)
    (h : Boundary b) : (a ++ b).takeWhile p = a.takeWhile p :=
  takeWhile_append_of_head (h.head?_any hp) a

theorem dropWhile_append_boundary {p : Char → Bool} (hp : ∀ c, isBoundary c → p c = false)
    (h : Boundary b) : (a ++ b).dropWhile p = a.dropWhile p ++ b :=
  dropWhile_append_of_head (h.head?_any hp) a

/-! ### Numbers and words at a boundary -/

/-- Digits end at a boundary. -/
theorem splitDigits_append {isDigit : Char → Bool} (hd : ∀ c, isBoundary c → isDigit c = false)
    (h : Boundary b) :
    splitDigits isDigit (a ++ b) = ((splitDigits isDigit a).1, (splitDigits isDigit a).2 ++ b) := by
  have hp : ∀ c, isBoundary c → (isDigit c || c == '_') = false := by
    intro c hc
    rw [hd c hc]
    rcases eq_of_isBoundary hc with rfl | rfl <;> rfl
  rw [splitDigits, takeWhile_append_boundary hp h, dropWhile_append_boundary hp h, splitDigits]

/-- A fraction is found, and ends, before a boundary. -/
theorem exists_splitFraction (a : List Char) :
    ∃ fraction rest, ∀ b, Boundary b → splitFraction (a ++ b) = (fraction, rest ++ b) := by
  cases a with
  | nil =>
    refine ⟨none, [], fun b hb => ?_⟩
    cases b with
    | nil => exact hb.elim
    | cons c rest => rcases eq_of_isBoundary hb with rfl | rfl <;> rfl
  | cons point a =>
    by_cases hp : point = '.'
    · subst hp
      cases a with
      | nil =>
        refine ⟨some ['0'], [], fun b hb => ?_⟩
        cases b with
        | nil => exact hb.elim
        | cons c rest => rcases eq_of_isBoundary hb with rfl | rfl <;> rfl
      | cons c a =>
        by_cases hc : c.isDigit
        · refine ⟨some (splitDigits Char.isDigit (c :: a)).1, (splitDigits Char.isDigit (c :: a)).2,
            fun b hb => ?_⟩
          have hs := splitDigits_append (a := c :: a) isDigit_of_isBoundary hb
          rw [List.cons_append] at hs
          simp only [splitFraction, List.cons_append, hc, if_true, hs]
        · by_cases ho : (c == '_' || c == '.' || isNameStart c) = true
          · refine ⟨none, '.' :: c :: a, fun b hb => ?_⟩
            simp only [splitFraction, List.cons_append, if_neg hc, if_pos ho]
          · refine ⟨some ['0'], c :: a, fun b hb => ?_⟩
            simp only [splitFraction, List.cons_append, if_neg hc, if_neg ho]
    · refine ⟨none, point :: a, fun b hb => ?_⟩
      simp [splitFraction, hp]

/-- An exponent is found, and ends, before a boundary. -/
theorem exists_splitExponent (a : List Char) :
    ∃ exponent rest, ∀ b, Boundary b → splitExponent (a ++ b) = (exponent, rest ++ b) := by
  cases a with
  | nil =>
    refine ⟨none, [], fun b hb => ?_⟩
    cases b with
    | nil => exact hb.elim
    | cons c rest => rcases eq_of_isBoundary hb with rfl | rfl <;> rfl
  | cons mark a =>
    by_cases hm : mark = 'e'
    · subst hm
      cases a with
      | nil =>
        refine ⟨none, ['e'], fun b hb => ?_⟩
        cases b with
        | nil => exact hb.elim
        | cons c rest => rcases eq_of_isBoundary hb with rfl | rfl <;> rfl
      | cons sign a =>
        by_cases hd : sign.isDigit
        · refine ⟨some (Decimal.natOfDigits (splitDigits Char.isDigit (sign :: a)).1),
            (splitDigits Char.isDigit (sign :: a)).2, fun b hb => ?_⟩
          have hs := splitDigits_append (a := sign :: a) isDigit_of_isBoundary hb
          rw [List.cons_append] at hs
          simp only [splitExponent, List.cons_append, hd, if_true, hs]
        · by_cases hs : (sign == '+' || sign == '-') = true
          · refine ⟨some (if sign == '-' then -(Decimal.natOfDigits (splitDigits Char.isDigit a).1 : Int)
              else Decimal.natOfDigits (splitDigits Char.isDigit a).1),
              (splitDigits Char.isDigit a).2, fun b hb => ?_⟩
            simp only [splitExponent, List.cons_append, if_neg hd, if_pos hs,
              splitDigits_append isDigit_of_isBoundary hb]
          · refine ⟨none, 'e' :: sign :: a, fun b hb => ?_⟩
            simp only [splitExponent, List.cons_append, if_neg hd, if_neg hs]
    · refine ⟨none, mark :: a, fun b hb => ?_⟩
      simp [splitExponent, hm]

/-- The base that a letter after a zero announces, and its digits. -/
def baseOf? (letter : Char) : Option (Nat × (Char → Bool)) :=
  match letter with
  | 'x' => some (16, isHexDigit)
  | 'X' => some (16, isHexDigit)
  | 'o' => some (8, fun c => '0' ≤ c && c ≤ '7')
  | 'O' => some (8, fun c => '0' ≤ c && c ≤ '7')
  | 'b' => some (2, fun c => c == '0' || c == '1')
  | 'B' => some (2, fun c => c == '0' || c == '1')
  | _ => none

/-- Whether a point with a digit after it stands at the start of a text, where one point or exponent
was `seen` already. -/
def hasSecondPoint (seen : Bool) : List Char → Bool
  | '.' :: c :: _ => c.isDigit && seen
  | _ => false

/-- The number to base ten at the start of a text, and what follows it. -/
def decimalNumber (negative : Bool) (s : List Char) : Option (Token × List Char) :=
  let (whole, rest) := splitDigits Char.isDigit s
  let (fraction, rest) := splitFraction rest
  let (exponent, rest) := splitExponent rest
  if hasSecondPoint (fraction.isSome || exponent.isSome) rest then none
  else some (number.token negative whole fraction exponent, rest)

theorem number_of_base (negative : Bool) {letter : Char} {base : Nat} {isDigit : Char → Bool}
    (h : baseOf? letter = some (base, isDigit)) (rest : List Char) :
    number negative ('0' :: letter :: rest) = number.based negative base isDigit rest := by
  unfold baseOf? at h
  split at h <;> cases h <;> rfl

theorem number_of_decimal (negative : Bool) {s : List Char}
    (h : ∀ letter rest, s = '0' :: letter :: rest → baseOf? letter = none) :
    number negative s = decimalNumber negative s := by
  unfold number
  split
  · cases h 'x' _ rfl
  · cases h 'X' _ rfl
  · cases h 'o' _ rfl
  · cases h 'O' _ rfl
  · cases h 'b' _ rfl
  · cases h 'B' _ rfl
  · simp only [decimalNumber]
    generalize (splitExponent _).2 = rest
    unfold hasSecondPoint
    split <;> simp

/-- No digit to any of the bases is a boundary. -/
theorem isDigit_of_baseOf? {letter : Char} {base : Nat} {isDigit : Char → Bool}
    (h : baseOf? letter = some (base, isDigit)) (c : Char) (hc : isBoundary c) :
    isDigit c = false := by
  unfold baseOf? at h
  rcases eq_of_isBoundary hc with rfl | rfl <;> split at h <;> cases h <;> decide

theorem hasSecondPoint_append (seen : Bool) (h : Boundary b) :
    hasSecondPoint seen (a ++ b) = hasSecondPoint seen a := by
  rcases a with - | ⟨point, - | ⟨c, a⟩⟩
  · cases b with
    | nil => rfl
    | cons c rest => rcases eq_of_isBoundary h with rfl | rfl <;> rfl
  · cases b with
    | nil => rfl
    | cons c rest =>
      by_cases hp : point = '.'
      · subst hp
        simp [hasSecondPoint, isDigit_of_isBoundary c h]
      · simp [hasSecondPoint, hp]
  · by_cases hp : point = '.'
    · subst hp
      rfl
    · simp [hasSecondPoint, hp]

/-- A number to base ten is found, and ends, before a boundary. -/
theorem exists_decimalNumber (negative : Bool) (a : List Char) :
    ∃ found : Option (Token × List Char), ∀ b, Boundary b →
      decimalNumber negative (a ++ b) = found.map fun (token, rest) => (token, rest ++ b) := by
  obtain ⟨fraction, afterFraction, hf⟩ := exists_splitFraction (splitDigits Char.isDigit a).2
  obtain ⟨exponent, rest, he⟩ := exists_splitExponent afterFraction
  let whole := (splitDigits Char.isDigit a).1
  refine ⟨if hasSecondPoint (fraction.isSome || exponent.isSome) rest then none
    else some (number.token negative whole fraction exponent, rest), fun b hb => ?_⟩
  simp only [decimalNumber, splitDigits_append isDigit_of_isBoundary hb, hf b hb, he b hb,
    hasSecondPoint_append _ hb, whole]
  split <;> rfl

/-- A number is found, and ends, before a boundary. -/
theorem exists_number (negative : Bool) {a : List Char} (ha : a ≠ []) :
    ∃ found : Option (Token × List Char), ∀ b, Boundary b →
      number negative (a ++ b) = found.map fun (token, rest) => (token, rest ++ b) := by
  have decimal (h : ∀ b, Boundary b → ∀ letter rest, a ++ b = '0' :: letter :: rest →
      baseOf? letter = none) : ∃ found : Option (Token × List Char), ∀ b, Boundary b →
        number negative (a ++ b) = found.map fun (token, rest) => (token, rest ++ b) := by
    obtain ⟨found, hfound⟩ := exists_decimalNumber negative a
    refine ⟨found, fun b hb => ?_⟩
    rw [number_of_decimal negative (h b hb), hfound b hb]
  rcases a with - | ⟨c, - | ⟨letter, a⟩⟩
  · exact absurd rfl ha
  · refine decimal fun b hb letter rest h => ?_
    rw [List.cons_append, List.nil_append, List.cons.injEq] at h
    rw [h.2] at hb
    rcases eq_of_isBoundary hb with rfl | rfl <;> rfl
  · by_cases hc : c = '0'
    · subst hc
      cases hbase : baseOf? letter with
      | none =>
        refine decimal fun b hb other rest h => ?_
        rw [List.cons_append, List.cons_append, List.cons.injEq, List.cons.injEq] at h
        rw [← h.2.1, hbase]
      | some based =>
        obtain ⟨base, isDigit⟩ := based
        refine ⟨(basedNumber negative base (splitDigits isDigit a).1).map
          (·, (splitDigits isDigit a).2), fun b hb => ?_⟩
        rw [List.cons_append, List.cons_append, number_of_base negative hbase, number.based,
          splitDigits_append (isDigit_of_baseOf? hbase) hb, Option.map_map]
        rfl
    · refine decimal fun b hb other rest h => ?_
      rw [List.cons_append, List.cons.injEq] at h
      exact absurd h.1 hc

/-! ### Signs at a boundary -/

/-- No sign has a boundary after its first character. -/
theorem not_isBoundary_of_mem_signs : ∀ sign ∈ Token.keptSigns ++ Token.longSigns ++
    Token.pairSigns ++ Token.singleSigns ++ ["!in"], ∀ c ∈ sign.toList.tail, ¬ isBoundary c := by
  have h : (Token.keptSigns ++ Token.longSigns ++ Token.pairSigns ++ Token.singleSigns ++
      ["!in"]).all (fun sign => sign.toList.tail.all fun c => decide (¬ isBoundary c)) = true := by
    decide
  intro sign hs c hc
  exact of_decide_eq_true (List.all_eq_true.1 (List.all_eq_true.1 h sign hs) c hc)

theorem not_contains_of_isBoundary {signs : List String} (hs : signs ⊆ Token.keptSigns ++
    Token.longSigns ++ Token.pairSigns ++ Token.singleSigns ++ ["!in"]) {s : List Char} {c : Char}
    (hc : c ∈ s.tail) (h : isBoundary c) : signs.contains (String.ofList s) = false := by
  rw [List.contains_eq_mem, decide_eq_false_iff_not]
  intro hm
  refine not_isBoundary_of_mem_signs _ (hs hm) c ?_ h
  rw [String.toList_ofList]
  exact hc

/-- A sign is found, and ends, before a boundary. -/
theorem exists_signToken {a : List Char} (ha : a ≠ []) :
    ∃ found : Option (Token × Nat), (∀ token length, found = some (token, length) →
      length ≤ a.length) ∧ ∀ b, Boundary b → signToken (a ++ b) = found := by
  -- no sign goes on at a boundary, and no list of signs has one that does
  have kept {s c} := @not_contains_of_isBoundary Token.keptSigns (by simp) s c
  have long {s c} := @not_contains_of_isBoundary Token.longSigns (by simp) s c
  have pairs {s c} := @not_contains_of_isBoundary Token.pairSigns
    (fun _ h => by simp only [List.mem_append]; exact .inl (.inl (.inr h))) s c
  have negated {s : List Char} {c : Char} (hc : c ∈ s.tail) (h : isBoundary c) :
      (String.ofList s = "!in") = False := by
    have := @not_contains_of_isBoundary ["!in"] (by simp) s c hc h
    simpa using this
  rcases a with - | ⟨x, - | ⟨y, - | ⟨z, a⟩⟩⟩
  · exact absurd rfl ha
  · refine ⟨if Token.singleSigns.contains (String.ofList [x]) then some (.sign (String.ofList [x]), 1)
      else if Token.keptSigns.contains (String.ofList [x]) then
        some (.reserved (String.ofList [x]), 1)
      else none, fun token length h => ?_, fun b hb => ?_⟩
    · split at h
      · cases h
        exact Nat.le_refl 1
      · split at h <;> cases h
        exact Nat.le_refl 1
    · rcases b with - | ⟨c, b⟩
      · exact hb.elim
      · have hc : isBoundary c := hb
        have h2 : c ∈ [x, c].tail := List.mem_singleton.2 rfl
        have h3 : c ∈ (x :: c :: b.take 1).tail := List.mem_cons_self
        simp only [signToken, List.cons_append, List.nil_append, List.take_succ_cons,
          List.take_zero, kept h2 hc, kept h3 hc, long h3 hc, pairs h2 hc, negated h3 hc,
          decide_false, Bool.false_and, Bool.false_eq_true, if_false]
        rfl
  · refine ⟨if Token.keptSigns.contains (String.ofList [x, y]) then
        some (.reserved (String.ofList [x, y]), 2)
      else if Token.pairSigns.contains (String.ofList [x, y]) then
        some (.sign (String.ofList [x, y]), 2)
      else if Token.singleSigns.contains (String.ofList [x]) then
        some (.sign (String.ofList [x]), 1)
      else if Token.keptSigns.contains (String.ofList [x]) then
        some (.reserved (String.ofList [x]), 1)
      else none, fun token length h => ?_, fun b hb => ?_⟩
    · repeat' split at h
      all_goals cases h <;> simp
    · cases b with
      | nil => exact hb.elim
      | cons c b =>
        have hc : isBoundary c := hb
        have h3 : c ∈ [x, y, c].tail := by simp
        simp only [signToken, List.cons_append, List.nil_append, List.take_succ_cons,
          List.take_zero, kept h3 hc, long h3 hc, negated h3 hc, decide_false, Bool.false_and,
          Bool.false_eq_true, if_false]
        rfl
  · refine ⟨signToken (x :: y :: z :: a), fun token length h => ?_, fun b hb => ?_⟩
    · simp only [signToken] at h
      repeat' split at h
      all_goals cases h <;> simp
    · -- of what follows three characters only the next one counts, which may end a name
      have head : (a ++ b).head?.any isNamePart = a.head?.any isNamePart := by
        cases a with
        | nil =>
          cases b with
          | nil => exact hb.elim
          | cons c b => exact isNamePart_of_isBoundary c hb
        | cons c a => rfl
      simp only [signToken, List.cons_append, List.take_succ_cons, List.take_zero,
        List.drop_succ_cons, List.drop_zero, head]
      rfl

/-! ### Texts and comments before a boundary -/

/-- A character written by digits does not depend on what follows its digits. -/
theorem coded_append {count : Nat} {c : Char} {rest : List Char}
    (h : coded count (a ++ b) = some (c, rest)) (hl : b.length ≤ rest.length) :
    ∃ a', rest = a' ++ b ∧ a'.length ≤ a.length ∧
      ∀ b', coded count (a ++ b') = some (c, a' ++ b') := by
  unfold coded at h
  simp only [Bool.and_eq_true, decide_eq_true_eq] at h
  split at h
  · rename_i hd
    rw [Option.map_eq_some_iff] at h
    obtain ⟨d, hd', he⟩ := h
    cases he
    have hc : count ≤ a.length := by
      have := hd.1
      simp only [List.length_take, List.length_append, List.length_drop] at this hl
      omega
    refine ⟨a.drop count, List.drop_append_of_le_length hc, by simp, fun b' => ?_⟩
    rw [List.take_append_of_le_length hc] at hd hd'
    simp [coded, List.take_append_of_le_length hc, List.drop_append_of_le_length hc, hd.1, hd.2, hd']
  · cases h

/-- The number of digits that follow a letter after a backslash. -/
def codeLength? (letter : Char) : Option Nat :=
  match letter with
  | 'x' => some 2
  | 'u' => some 4
  | 'U' => some 8
  | _ => none

/-- The character that a letter after a backslash stands for by itself. -/
def shortEscape? (quote letter : Char) : Option Char :=
  match letter with
  | '\\' => some '\\'
  | 't' => some '\t'
  | 'n' => some '\n'
  | 'r' => some '\r'
  | c => if c = quote then some c else none

theorem escaped_cons (quote x : Char) (s : List Char) :
    escaped quote (x :: s) =
      match codeLength? x with
      | some count => coded count s
      | none => (shortEscape? quote x).map (·, s) := by
  unfold escaped codeLength? shortEscape?
  split <;> simp_all

theorem length_of_coded {count : Nat} {c : Char} {s rest : List Char}
    (h : coded count s = some (c, rest)) : rest.length ≤ s.length := by
  obtain ⟨a', hr, hl, -⟩ := coded_append (a := s) (b := []) (by simpa using h) (Nat.zero_le _)
  simpa [hr] using hl

theorem length_of_escaped {quote c : Char} {s rest : List Char}
    (h : escaped quote s = some (c, rest)) : rest.length < s.length := by
  cases s with
  | nil => cases h
  | cons x s =>
    rw [escaped_cons] at h
    rw [List.length_cons, Nat.lt_succ_iff]
    cases hx : codeLength? x with
    | some count =>
      rw [hx] at h
      exact length_of_coded h
    | none =>
      rw [hx] at h
      obtain ⟨d, -, he⟩ := Option.map_eq_some_iff.1 h
      cases he
      exact Nat.le_refl _

/-- An escape does not depend on what follows it. -/
theorem escaped_append {quote c : Char} {rest : List Char}
    (h : escaped quote (a ++ b) = some (c, rest)) (hl : b.length ≤ rest.length) :
    ∃ a', rest = a' ++ b ∧ a'.length < a.length ∧
      ∀ b', escaped quote (a ++ b') = some (c, a' ++ b') := by
  cases a with
  | nil => exact absurd (length_of_escaped h) (Nat.not_lt.2 hl)
  | cons x a =>
    simp only [List.cons_append, escaped_cons] at h ⊢
    cases hx : codeLength? x with
    | some count =>
      rw [hx] at h
      obtain ⟨a', hr, ha, hb⟩ := coded_append h hl
      exact ⟨a', hr, Nat.lt_succ_of_le ha, hb⟩
    | none =>
      rw [hx] at h
      obtain ⟨d, hd, he⟩ := Option.map_eq_some_iff.1 h
      cases he
      exact ⟨a, rfl, Nat.lt_succ_self _, fun b' => by rw [hd]; rfl⟩

/-- A character in front of a text that was found. -/
def prepend (c : Char) (found : Except SyntaxProblem (List Char × List Char)) :
    Except SyntaxProblem (List Char × List Char) := do
  let (text, after) ← found
  return (c :: text, after)

theorem prepend_eq_ok {c : Char} {found : Except SyntaxProblem (List Char × List Char)}
    {text rest : List Char} (h : prepend c found = .ok (text, rest)) :
    ∃ text', found = .ok (text', rest) ∧ text = c :: text' := by
  obtain _ | ⟨text', rest'⟩ := found
  · cases h
  · cases h
    exact ⟨text', rfl, rfl⟩

@[simp] theorem prepend_ok (c : Char) (text rest : List Char) :
    prepend c (.ok (text, rest)) = .ok (c :: text, rest) := rfl

section

variable (quote : Char) (fuel : Nat) (rest : List Char)

@[simp] theorem literal_zero : literal quote 0 rest = .error .unterminatedText := by
  rw [literal.eq_def]

@[simp] theorem literal_nil : literal quote fuel [] = .error .unterminatedText := by
  cases fuel <;> rw [literal.eq_def]

/-- A backslash at the end of a line. -/
theorem literal_join :
    literal quote (fuel + 1) ('\\' :: '\n' :: rest) =
      literal quote fuel (rest.dropWhile Text.isBlank) := by
  rw [literal.eq_def]
  rfl

/-- A backslash elsewhere. -/
theorem literal_escape (h : rest.head? ≠ some '\n') :
    literal quote (fuel + 1) ('\\' :: rest) =
      match escaped quote rest with
      | some (c, rest) => prepend c (literal quote fuel rest)
      | none => .error .escape := by
  rw [literal.eq_def]
  simp only [if_true]
  split
  · exact absurd rfl h
  · rfl

/-- A quote that is written once. -/
theorem literal_close (hq : quote ≠ '\\') (h : rest.head? ≠ some quote) :
    literal quote (fuel + 1) (quote :: rest) = .ok ([], rest) := by
  rw [literal.eq_def]
  simp only [if_neg hq, if_true]
  cases rest with
  | nil => rfl
  | cons d after =>
    have hd : d ≠ quote := fun he => h (by rw [he]; rfl)
    simp only [if_neg hd]

/-- A quote that is written twice. -/
theorem literal_double (hq : quote ≠ '\\') :
    literal quote (fuel + 1) (quote :: quote :: rest) = prepend quote (literal quote fuel rest) := by
  rw [literal.eq_def]
  simp only [if_neg hq, if_true]
  rfl

/-- Any other character. -/
theorem literal_cons {c : Char} (hc : c ≠ '\\') (hq : c ≠ quote) (hn : c ≠ '\n') :
    literal quote (fuel + 1) (c :: rest) = prepend c (literal quote fuel rest) := by
  rw [literal.eq_def]
  simp only [if_neg hc, if_neg hq, if_neg hn]
  rfl

/-- No literal goes on after the end of its line. -/
theorem literal_newline (hq : quote ≠ '\n') :
    literal quote (fuel + 1) ('\n' :: rest) = .error .unterminatedText := by
  rw [literal.eq_def]
  have hn : '\n' ≠ '\\' := by decide
  simp only [if_neg hn, if_neg hq.symm, if_true]

/-- How a literal goes on or ends. -/
theorem literal_cases {quote : Char} (hq : quote ≠ '\\') (hn : quote ≠ '\n') {fuel : Nat} {c : Char}
    {s text rest : List Char} (h : literal quote (fuel + 1) (c :: s) = .ok (text, rest)) :
    (∃ s', c = '\\' ∧ s = '\n' :: s' ∧
      literal quote fuel (s'.dropWhile Text.isBlank) = .ok (text, rest)) ∨
    (∃ d s' text', c = '\\' ∧ s.head? ≠ some '\n' ∧ escaped quote s = some (d, s') ∧
      literal quote fuel s' = .ok (text', rest) ∧ text = d :: text') ∨
    (c = quote ∧ s.head? ≠ some quote ∧ text = [] ∧ rest = s) ∨
    (∃ s' text', c = quote ∧ s = quote :: s' ∧ literal quote fuel s' = .ok (text', rest) ∧
      text = quote :: text') ∨
    (∃ text', c ≠ '\\' ∧ c ≠ quote ∧ c ≠ '\n' ∧ literal quote fuel s = .ok (text', rest) ∧
      text = c :: text') := by
  by_cases hb : c = '\\'
  · subst hb
    by_cases hs : s.head? = some '\n'
    · obtain ⟨s', rfl⟩ : ∃ s', s = '\n' :: s' := by
        cases s with
        | nil => cases hs
        | cons d s' => cases hs; exact ⟨s', rfl⟩
      rw [literal_join] at h
      exact .inl ⟨s', rfl, rfl, h⟩
    · rw [literal_escape _ _ _ hs] at h
      cases he : escaped quote s with
      | none => rw [he] at h; cases h
      | some found =>
        obtain ⟨d, s'⟩ := found
        rw [he] at h
        obtain ⟨text', ht, hc⟩ := prepend_eq_ok h
        exact .inr (.inl ⟨d, s', text', rfl, hs, rfl, ht, hc⟩)
  · by_cases hc : c = quote
    · subst hc
      by_cases hs : s.head? = some c
      · obtain ⟨s', rfl⟩ : ∃ s', s = c :: s' := by
          cases s with
          | nil => cases hs
          | cons d s' => cases hs; exact ⟨s', rfl⟩
        rw [literal_double _ _ _ hq] at h
        obtain ⟨text', ht, hc⟩ := prepend_eq_ok h
        exact .inr (.inr (.inr (.inl ⟨s', text', rfl, rfl, ht, hc⟩)))
      · rw [literal_close _ _ _ hq hs] at h
        cases h
        exact .inr (.inr (.inl ⟨rfl, hs, rfl, rfl⟩))
    · by_cases hnl : c = '\n'
      · subst hnl
        rw [literal_newline _ _ _ hn] at h
        cases h
      · rw [literal_cons _ _ _ hb hc hnl] at h
        obtain ⟨text', ht, he⟩ := prepend_eq_ok h
        exact .inr (.inr (.inr (.inr ⟨text', hb, hc, hnl, ht, he⟩)))

theorem length_of_literal {quote : Char} (hq : quote ≠ '\\') (hn : quote ≠ '\n') {fuel : Nat}
    {s text rest : List Char} (h : literal quote fuel s = .ok (text, rest)) :
    rest.length < s.length := by
  induction fuel generalizing s text rest with
  | zero => simp at h
  | succ fuel ih =>
    cases s with
    | nil => simp at h
    | cons c s =>
      rw [List.length_cons]
      rcases literal_cases hq hn h with ⟨s', -, rfl, h'⟩ | ⟨d, s', text', -, -, he, h', -⟩ |
        ⟨-, -, -, rfl⟩ | ⟨s', text', -, rfl, h', -⟩ | ⟨text', -, -, -, h', -⟩
      · have := ih h'
        have := (List.dropWhile_suffix Text.isBlank (l := s')).length_le
        rw [List.length_cons]
        omega
      · have := ih h'
        have := length_of_escaped he
        omega
      · exact Nat.lt_succ_self _
      · have := ih h'
        rw [List.length_cons]
        omega
      · have := ih h'
        omega

/-- The text of a literal does not depend on what follows the literal. The fuel only has to cover
the literal itself. -/
theorem literal_append {quote : Char} (hq : quote ≠ '\\') (hn : ¬ isBoundary quote) {fuel : Nat}
    {text rest : List Char} (h : literal quote fuel (a ++ b) = .ok (text, rest))
    (hl : b.length ≤ rest.length) :
    ∃ a', rest = a' ++ b ∧ ∀ b', Boundary b' → ∀ fuel', a.length ≤ fuel' →
      literal quote fuel' (a ++ b') = .ok (text, a' ++ b') := by
  have hn' : quote ≠ '\n' := by rintro rfl; exact hn rfl
  induction fuel generalizing a text rest with
  | zero => simp at h
  | succ fuel ih =>
    cases a with
    | nil => exact absurd (length_of_literal hq hn' h) (Nat.not_lt.2 hl)
    | cons c a =>
      rw [List.cons_append] at h
      have more {fuel' : Nat} (hf : (c :: a).length ≤ fuel') :
          ∃ fuel'', fuel' = fuel'' + 1 ∧ a.length ≤ fuel'' := by
        rw [List.length_cons] at hf
        exact ⟨fuel' - 1, by omega, by omega⟩
      -- an escaped line break, another escape, the end, a doubled quote, or any other character
      rcases literal_cases hq hn' h with ⟨s', rfl, hs, h'⟩ | ⟨d, s', text', rfl, hs, he, h', rfl⟩ |
        ⟨rfl, hs, rfl, rfl⟩ | ⟨s', text', rfl, hs, h', rfl⟩ | ⟨text', hc, hcq, hcn, h', rfl⟩
      · cases a with
        | nil =>
          have := length_of_literal hq hn' h'
          have := (List.dropWhile_suffix Text.isBlank (l := s')).length_le
          rw [List.nil_append] at hs
          rw [hs, List.length_cons] at hl
          omega
        | cons d a =>
          rw [List.cons_append, List.cons.injEq] at hs
          obtain ⟨rfl, rfl⟩ := hs
          rw [List.dropWhile_append] at h'
          split at h'
          · have := length_of_literal hq hn' h'
            have := (List.dropWhile_suffix Text.isBlank (l := b)).length_le
            omega
          · rename_i hblank
            obtain ⟨a', rfl, hb⟩ := ih h' hl
            refine ⟨a', rfl, fun b' hb' fuel' hf => ?_⟩
            obtain ⟨fuel'', rfl, hf'⟩ := more hf
            have := (List.dropWhile_suffix Text.isBlank (l := a)).length_le
            rw [List.cons_append, List.cons_append, literal_join, List.dropWhile_append,
              if_neg hblank, hb b' hb' fuel'' (by rw [List.length_cons] at hf'; omega)]
      · have hlt := length_of_literal hq hn' h'
        obtain ⟨a₁, rfl, hlen, he'⟩ := escaped_append he (by omega)
        obtain ⟨a', rfl, hb⟩ := ih h' hl
        refine ⟨a', rfl, fun b' hb' fuel' hf => ?_⟩
        obtain ⟨fuel'', rfl, hf'⟩ := more hf
        have head : (a ++ b').head? ≠ some '\n' := by
          cases a with
          | nil => cases hlen
          | cons d a => exact hs
        rw [List.cons_append, literal_escape _ _ _ head, he' b']
        simp only
        rw [hb b' hb' fuel'' (by omega), prepend_ok]
      · refine ⟨a, rfl, fun b' hb' fuel' hf => ?_⟩
        obtain ⟨fuel'', rfl, -⟩ := more hf
        rw [List.cons_append, literal_close _ _ _ hq ?_]
        cases a with
        | nil =>
          cases b' with
          | nil => exact hb'.elim
          | cons d b' => intro hd; cases hd; exact hn hb'
        | cons d a => exact hs
      · cases a with
        | nil =>
          have := length_of_literal hq hn' h'
          rw [List.nil_append] at hs
          rw [hs, List.length_cons] at hl
          omega
        | cons d a =>
          rw [List.cons_append, List.cons.injEq] at hs
          obtain ⟨rfl, rfl⟩ := hs
          obtain ⟨a', rfl, hb⟩ := ih h' hl
          refine ⟨a', rfl, fun b' hb' fuel' hf => ?_⟩
          obtain ⟨fuel'', rfl, hf'⟩ := more hf
          rw [List.length_cons] at hf'
          rw [List.cons_append, List.cons_append, literal_double _ _ _ hq,
            hb b' hb' fuel'' (by omega), prepend_ok]
      · obtain ⟨a', rfl, hb⟩ := ih h' hl
        refine ⟨a', rfl, fun b' hb' fuel' hf => ?_⟩
        obtain ⟨fuel'', rfl, hf'⟩ := more hf
        rw [List.cons_append, literal_cons _ _ _ hc hcq hcn, hb b' hb' fuel'' hf', prepend_ok]

end

/-- Whether a character and the next one are read together in a template literal. -/
def isPair (c : Char) (next : Option Char) : Bool :=
  (c == '\r' && next == some '\n') || (c == '$' && next == some '\x7b')

/-- A character of a template literal that stands for itself. -/
theorem templatePiece_cons {c : Char} {s : List Char} (hc : c ≠ '\x60')
    (hp : isPair c s.head? = false) :
    templatePiece (c :: s) = (templatePiece s).map fun (text, found) => (c :: text, found) := by
  rw [templatePiece.eq_def]
  split
  · rename_i h
    cases h
  · rename_i h
    cases h
    cases hp
  · rename_i h
    cases h
    exact absurd rfl hc
  · rename_i h
    cases h
    exact absurd rfl hc
  · rename_i h
    cases h
    cases hp
  · rename_i h
    cases h
    rfl

/-- The end of a template literal. -/
theorem templatePiece_close {s : List Char} (h : s.head? ≠ some '\x60') :
    templatePiece ('\x60' :: s) = some ([], false, s) := by
  cases s with
  | nil => rfl
  | cons d s =>
    have hd : d ≠ '\x60' := by rintro rfl; exact h rfl
    simp [templatePiece, hd]

/-- How a template literal goes on or ends. -/
theorem templatePiece_cases {c : Char} {s text rest : List Char} {more : Bool}
    (h : templatePiece (c :: s) = some (text, more, rest)) :
    (∃ s' text', c = '\r' ∧ s = '\n' :: s' ∧ templatePiece s' = some (text', more, rest) ∧
      text = '\n' :: text') ∨
    (∃ s' text', c = '\x60' ∧ s = '\x60' :: s' ∧ templatePiece s' = some (text', more, rest) ∧
      text = '\x60' :: text') ∨
    (c = '\x60' ∧ s.head? ≠ some '\x60' ∧ text = [] ∧ more = false ∧ rest = s) ∨
    (c = '$' ∧ s = '\x7b' :: rest ∧ text = [] ∧ more = true) ∨
    (∃ text', c ≠ '\x60' ∧ isPair c s.head? = false ∧ templatePiece s = some (text', more, rest) ∧
      text = c :: text') := by
  have prepended {d : Char} {s' : List Char}
      (h : (templatePiece s').map (fun (text, found) => (d :: text, found)) =
        some (text, more, rest)) :
      ∃ text', templatePiece s' = some (text', more, rest) ∧ text = d :: text' := by
    obtain ⟨⟨text', found⟩, hs, he⟩ := Option.map_eq_some_iff.1 h
    cases he
    exact ⟨text', hs, rfl⟩
  by_cases hc : c = '\x60'
  · subst hc
    by_cases hs : s.head? = some '\x60'
    · cases s with
      | nil => cases hs
      | cons d s =>
        cases hs
        obtain ⟨text', hs, ht⟩ := prepended h
        exact .inr (.inl ⟨s, text', rfl, rfl, hs, ht⟩)
    · rw [templatePiece_close hs] at h
      cases h
      exact .inr (.inr (.inl ⟨rfl, hs, rfl, rfl, rfl⟩))
  · cases hp : isPair c s.head? with
    | false =>
      rw [templatePiece_cons hc hp] at h
      obtain ⟨text', hs, ht⟩ := prepended h
      exact .inr (.inr (.inr (.inr ⟨text', hc, rfl, hs, ht⟩)))
    | true =>
      cases s with
      | nil => simp [isPair] at hp
      | cons d s =>
        simp only [isPair, List.head?_cons, Bool.or_eq_true, Bool.and_eq_true, beq_iff_eq,
          Option.some.injEq] at hp
        rcases hp with ⟨rfl, rfl⟩ | ⟨rfl, rfl⟩
        · obtain ⟨text', hs, ht⟩ := prepended h
          exact .inl ⟨s, text', rfl, rfl, hs, ht⟩
        · cases h
          exact .inr (.inr (.inr (.inl ⟨rfl, rfl, rfl, rfl⟩)))

theorem length_of_templatePiece {s text rest : List Char} {more : Bool}
    (h : templatePiece s = some (text, more, rest)) : rest.length < s.length := by
  induction hn : s.length using Nat.strongRecOn generalizing s text rest more with
  | _ n ih =>
    cases s with
    | nil => cases h
    | cons c s =>
      rw [List.length_cons] at hn
      rcases templatePiece_cases h with ⟨s', text', -, rfl, h', -⟩ | ⟨s', text', -, rfl, h', -⟩ |
        ⟨-, -, -, -, rfl⟩ | ⟨-, rfl, -, -⟩ | ⟨text', -, -, h', -⟩
      · rw [List.length_cons] at hn
        have := ih s'.length (by omega) h' rfl
        omega
      · rw [List.length_cons] at hn
        have := ih s'.length (by omega) h' rfl
        omega
      · omega
      · rw [List.length_cons] at hn
        omega
      · have := ih s.length (by omega) h' rfl
        omega

/-- The text of a piece of a template literal does not depend on what follows the piece. -/
theorem templatePiece_append {text rest : List Char} {more : Bool}
    (h : templatePiece (a ++ b) = some (text, more, rest)) (hl : b.length ≤ rest.length) :
    ∃ a', rest = a' ++ b ∧
      ∀ b', Boundary b' → templatePiece (a ++ b') = some (text, more, a' ++ b') := by
  induction hn : a.length using Nat.strongRecOn generalizing a text rest more with
  | _ n ih =>
    cases a with
    | nil => exact absurd (length_of_templatePiece h) (Nat.not_lt.2 hl)
    | cons c a =>
      rw [List.length_cons] at hn
      rw [List.cons_append] at h
      -- a doubled quote, an escape, the end, an interpolation, or any other character
      rcases templatePiece_cases h with ⟨s', text', rfl, hs, h', rfl⟩ | ⟨s', text', rfl, hs, h', rfl⟩ |
        ⟨rfl, hs, rfl, rfl, rfl⟩ | ⟨rfl, hs, rfl, rfl⟩ | ⟨text', hc, hp, h', rfl⟩
      · cases a with
        | nil =>
          have := length_of_templatePiece h'
          rw [List.nil_append] at hs
          rw [hs, List.length_cons] at hl
          omega
        | cons d a =>
          rw [List.cons_append, List.cons.injEq] at hs
          obtain ⟨rfl, rfl⟩ := hs
          rw [List.length_cons] at hn
          obtain ⟨a', rfl, hb⟩ := ih a.length (by omega) h' hl rfl
          exact ⟨a', rfl, fun b' hb' => by
            rw [List.cons_append, List.cons_append, templatePiece, hb b' hb']; rfl⟩
      · cases a with
        | nil =>
          have := length_of_templatePiece h'
          rw [List.nil_append] at hs
          rw [hs, List.length_cons] at hl
          omega
        | cons d a =>
          rw [List.cons_append, List.cons.injEq] at hs
          obtain ⟨rfl, rfl⟩ := hs
          rw [List.length_cons] at hn
          obtain ⟨a', rfl, hb⟩ := ih a.length (by omega) h' hl rfl
          exact ⟨a', rfl, fun b' hb' => by
            rw [List.cons_append, List.cons_append, templatePiece, hb b' hb']; rfl⟩
      · refine ⟨a, rfl, fun b' hb' => templatePiece_close ?_⟩
        cases a with
        | nil =>
          cases b' with
          | nil => exact hb'.elim
          | cons d b' => intro hd; cases hd; cases hb'
        | cons d a => exact hs
      · cases a with
        | nil =>
          rw [List.nil_append] at hs
          rw [hs, List.length_cons] at hl
          omega
        | cons d a =>
          rw [List.cons_append, List.cons.injEq] at hs
          obtain ⟨rfl, rfl⟩ := hs
          exact ⟨a, rfl, fun b' _ => rfl⟩
      · obtain ⟨a', rfl, hb⟩ := ih a.length (by omega) h' hl rfl
        refine ⟨a', rfl, fun b' hb' => ?_⟩
        have head : isPair c (a ++ b').head? = false := by
          cases a with
          | nil => exact absurd (length_of_templatePiece h') (Nat.not_lt.2 hl)
          | cons d a => exact hp
        rw [List.cons_append, templatePiece_cons hc head, hb b' hb']
        rfl

/-- Whether a character and the next one open or close a comment. -/
def isMark (c : Char) (next : Option Char) : Bool :=
  (c == '/' && next == some '*') || (c == '*' && next == some '/')

/-- A character inside a comment. -/
theorem afterComment_cons {depth : Nat} {c : Char} {s : List Char} (h : isMark c s.head? = false) :
    afterComment depth (c :: s) = afterComment depth s := by
  rw [afterComment.eq_def]
  split
  · rename_i he
    cases he
    cases h
  · rename_i he
    cases he
    cases h
  · rename_i he
    cases he
    cases h
  · rename_i he
    cases he
    rfl
  · rename_i he
    cases he

theorem isMark_eq_true {c : Char} {s : List Char} (h : isMark c s.head? = true) :
    (∃ s', c = '/' ∧ s = '*' :: s') ∨ (∃ s', c = '*' ∧ s = '/' :: s') := by
  cases s with
  | nil => simp [isMark] at h
  | cons d s =>
    simp only [isMark, List.head?_cons, Bool.or_eq_true, Bool.and_eq_true, beq_iff_eq,
      Option.some.injEq] at h
    rcases h with ⟨rfl, rfl⟩ | ⟨rfl, rfl⟩
    · exact .inl ⟨s, rfl, rfl⟩
    · exact .inr ⟨s, rfl, rfl⟩

theorem length_afterComment (depth : Nat) (s : List Char) :
    (afterComment depth s).length ≤ s.length - 2 := by
  induction hn : s.length using Nat.strongRecOn generalizing s depth with
  | _ n ih =>
    cases s with
    | nil => cases depth <;> exact Nat.zero_le _
    | cons c s =>
      rw [List.length_cons] at hn
      cases hm : isMark c s.head? with
      | false =>
        rw [afterComment_cons hm]
        have := ih s.length (by omega) depth s rfl
        omega
      | true =>
        rcases isMark_eq_true hm with ⟨s', rfl, rfl⟩ | ⟨s', rfl, rfl⟩
        · rw [List.length_cons] at hn
          have := ih s'.length (by omega) (depth + 1) s' rfl
          rw [afterComment]
          omega
        · rw [List.length_cons] at hn
          cases depth with
          | zero =>
            rw [afterComment]
            omega
          | succ depth =>
            have := ih s'.length (by omega) depth s' rfl
            rw [afterComment]
            omega

/-- Where a comment ends does not depend on what follows it. -/
theorem afterComment_append {depth : Nat} (hb : b ≠ [])
    (h : b.length ≤ (afterComment depth (a ++ b)).length) :
    ∃ a', afterComment depth (a ++ b) = a' ++ b ∧
      ∀ b', afterComment depth (a ++ b') = a' ++ b' := by
  induction hn : a.length using Nat.strongRecOn generalizing a depth with
  | _ n ih =>
    have hpos := List.length_pos_iff.2 hb
    rcases a with - | ⟨c, - | ⟨d, a⟩⟩
    · have := length_afterComment depth b
      rw [List.nil_append] at h
      omega
    · have := length_afterComment depth (c :: b)
      rw [List.cons_append, List.nil_append] at h
      rw [List.length_cons] at this
      omega
    · rw [List.length_cons, List.length_cons] at hn
      have head (b' : List Char) : (d :: a ++ b').head? = some d := rfl
      cases hm : isMark c (some d) with
      | false =>
        rw [List.cons_append, afterComment_cons (by rw [head]; exact hm)] at h ⊢
        obtain ⟨a', he, hb'⟩ := ih (d :: a).length (by rw [List.length_cons]; omega) h rfl
        refine ⟨a', he, fun b' => ?_⟩
        rw [List.cons_append, afterComment_cons (by rw [head]; exact hm), hb' b']
      | true =>
        rcases isMark_eq_true (s := d :: a) hm with ⟨s', rfl, hs⟩ | ⟨s', rfl, hs⟩
        · cases hs
          obtain ⟨a', he, hb'⟩ := @ih a.length (by omega) a (depth + 1) h rfl
          exact ⟨a', he, hb'⟩
        · cases hs
          cases depth with
          | zero => exact ⟨a, rfl, fun b' => rfl⟩
          | succ depth =>
            obtain ⟨a', he, hb'⟩ := @ih a.length (by omega) a depth h rfl
            exact ⟨a', he, hb'⟩

end

/-! ### Every token takes something -/

theorem length_splitDigits (isDigit : Char → Bool) (s : List Char) :
    (splitDigits isDigit s).2.length ≤ s.length :=
  (List.dropWhile_suffix _).length_le

theorem length_splitFraction (s : List Char) : (splitFraction s).2.length ≤ s.length := by
  unfold splitFraction
  split
  · split
    · exact Nat.le_refl _
    · split
      · exact Nat.le_succ_of_le (length_splitDigits _ _)
      · split
        · exact Nat.le_refl _
        · exact Nat.le_succ _
  · exact Nat.le_refl _

theorem length_splitExponent (s : List Char) : (splitExponent s).2.length ≤ s.length := by
  unfold splitExponent
  split
  · split
    · exact Nat.le_succ_of_le (length_splitDigits _ _)
    · split
      · exact Nat.le_succ_of_le (Nat.le_succ_of_le (length_splitDigits _ _))
      · exact Nat.le_refl _
  · exact Nat.le_refl _

theorem length_of_decimalNumber {negative : Bool} {c : Char} {s rest : List Char} {found : Token}
    (hc : c.isDigit) (h : decimalNumber negative (c :: s) = some (found, rest)) :
    rest.length ≤ s.length := by
  have hs : (splitDigits Char.isDigit (c :: s)).2 = (splitDigits Char.isDigit s).2 := by
    simp [splitDigits, hc]
  simp only [decimalNumber] at h
  split at h
  · cases h
  · cases h
    refine Nat.le_trans (length_splitExponent _) (Nat.le_trans (length_splitFraction _) ?_)
    rw [hs]
    exact length_splitDigits _ _

theorem length_of_number {negative : Bool} {c : Char} {s rest : List Char} {found : Token}
    (hc : c.isDigit) (h : number negative (c :: s) = some (found, rest)) :
    rest.length ≤ s.length := by
  by_cases hb : ∃ letter rest base, c :: s = '0' :: letter :: rest ∧ baseOf? letter = some base
  · obtain ⟨letter, s', ⟨base, isDigit⟩, hs, hbase⟩ := hb
    rw [hs, number_of_base negative hbase, number.based, Option.map_eq_some_iff] at h
    obtain ⟨token, -, he⟩ := h
    cases he
    cases hs
    exact Nat.le_succ_of_le (length_splitDigits _ _)
  · rw [number_of_decimal negative] at h
    · exact length_of_decimalNumber hc h
    · intro letter s' hs
      cases hbase : baseOf? letter with
      | none => rfl
      | some base => exact absurd ⟨letter, s', base, hs, hbase⟩ hb

theorem length_of_signToken {s : List Char} {found : Token} {length : Nat}
    (h : signToken s = some (found, length)) : 0 < length := by
  simp only [signToken] at h
  repeat' split at h
  all_goals cases h <;> simp

theorem length_of_sign {c : Char} {s rest : List Char} {found : Token}
    (h : token.sign (c :: s) = .ok (found, rest)) : rest.length ≤ s.length := by
  unfold token.sign at h
  split at h
  · rename_i hs
    cases h
    have := length_of_signToken hs
    rw [List.length_drop, List.length_cons]
    omega
  · cases h

/-! ### Tokens -/

/-- What follows the opening of a template literal; a line break right after it is left out. -/
def afterOpening (s : List Char) : List Char :=
  match s with
  | '\n' :: rest => rest
  | '\r' :: '\n' :: rest => rest
  | rest => rest

/-- The characters that open a literal. -/
def isQuote (c : Char) : Bool := c == '"' || c == '\x27' || c == '\x60'

theorem eq_of_isQuote {c : Char} (h : isQuote c) : c = '"' ∨ c = '\x27' ∨ c = '\x60' := by
  simp only [isQuote, Bool.or_eq_true, beq_iff_eq] at h
  rwa [or_assoc] at h

/-- Whether a minus sign belongs to the number after it. -/
def opensNumber (operand : Bool) (c : Char) (next : Option Char) : Bool :=
  c == '-' && operand && next.any Char.isDigit

section

variable (evaluates operand : Bool) (s : List Char)

theorem token_text : token evaluates operand ('"' :: s) =
    (literal '"' s.length s).map fun (text, after) => (.text (String.ofList text), after) := by
  rw [token.eq_def]
  simp only
  cases literal '"' s.length s <;> rfl

theorem token_char : token evaluates operand ('\x27' :: s) =
    match literal '\x27' s.length s with
    | .ok ([c], after) => .ok (.char c, after)
    | .ok _ => .error .character
    | .error problem => .error problem := by
  rw [token.eq_def]
  simp only
  rcases literal '\x27' s.length s with problem | ⟨- | ⟨c, - | ⟨d, text⟩⟩, after⟩ <;> rfl

theorem token_piece : token evaluates operand ('\x60' :: s) =
    match templatePiece (afterOpening s) with
    | some (text, more, after) => .ok (.piece (String.ofList text) more, after)
    | none => .error .unterminatedText := rfl

theorem token_negative (h : opensNumber operand '-' s.head?) :
    token evaluates operand ('-' :: s) =
      match number true s with
      | some found => .ok found
      | none => .error .number := by
  cases s with
  | nil => simp [opensNumber] at h
  | cons c s =>
    have hc : (operand && c.isDigit) = true := by simpa [opensNumber] using h
    rw [token.eq_def]
    exact if_pos hc

/-- The first character of a token that none of the marks begins. -/
theorem token_cons {c : Char} (hq : isQuote c = false)
    (hn : opensNumber operand c s.head? = false) : token evaluates operand (c :: s) =
      if c.isDigit then
        match number false (c :: s) with
        | some found => .ok found
        | none => .error .number
      else if isNameStart c then
        (wordToken evaluates ((c :: s).takeWhile isNamePart)).map
          (·, (c :: s).dropWhile isNamePart)
      else token.sign (c :: s) := by
  rw [token.eq_def]
  split
  · rename_i h
    cases h
    cases hq
  · rename_i h
    cases h
    cases hq
  · rename_i h
    cases h
    cases hq
  · rename_i d s h
    cases h
    have hd : (operand && d.isDigit) = false := by simpa [opensNumber] using hn
    simp only [hd]
    rfl
  · rename_i h
    cases h
    split
    · rfl
    · split
      · cases wordToken evaluates ((c :: s).takeWhile isNamePart) <;> rfl
      · rfl
  · rename_i h
    cases h

end

theorem length_afterOpening (s : List Char) : (afterOpening s).length ≤ s.length := by
  unfold afterOpening
  split
  · exact Nat.le_succ _
  · exact Nat.le_succ_of_le (Nat.le_succ _)
  · exact Nat.le_refl _

/-- How a token begins and is read: its first character, what follows that, the token, and the rest. -/
inductive Yields (evaluates operand : Bool) :
    Char → List Char → Token → List Char → Prop where
  | text {s text rest : List Char} (h : literal '"' s.length s = .ok (text, rest)) :
    Yields evaluates operand '"' s (.text (String.ofList text)) rest
  | char {s rest : List Char} {c : Char} (h : literal '\x27' s.length s = .ok ([c], rest)) :
    Yields evaluates operand '\x27' s (.char c) rest
  | piece {s text rest : List Char} {more : Bool}
    (h : templatePiece (afterOpening s) = some (text, more, rest)) :
    Yields evaluates operand '\x60' s (.piece (String.ofList text) more) rest
  | negative {s rest : List Char} {found : Token} (hn : opensNumber operand '-' s.head? = true)
    (h : number true s = some (found, rest)) : Yields evaluates operand '-' s found rest
  | number {c : Char} {s rest : List Char} {found : Token} (hq : isQuote c = false)
    (hn : opensNumber operand c s.head? = false) (hd : c.isDigit = true)
    (h : number false (c :: s) = some (found, rest)) : Yields evaluates operand c s found rest
  | word {c : Char} {s : List Char} {found : Token} (hq : isQuote c = false)
    (hn : opensNumber operand c s.head? = false) (hd : c.isDigit = false)
    (hw : isNameStart c = true)
    (h : wordToken evaluates ((c :: s).takeWhile isNamePart) = .ok found) :
    Yields evaluates operand c s found ((c :: s).dropWhile isNamePart)
  | sign {c : Char} {s rest : List Char} {found : Token} (hq : isQuote c = false)
    (hn : opensNumber operand c s.head? = false) (hd : c.isDigit = false)
    (hw : isNameStart c = false) (h : token.sign (c :: s) = .ok (found, rest)) :
    Yields evaluates operand c s found rest

section

variable {evaluates operand : Bool} {c : Char} {s rest : List Char} {found : Token}

theorem yields_of_quote (hq : isQuote c = true)
    (h : token evaluates operand (c :: s) = .ok (found, rest)) :
    Yields evaluates operand c s found rest := by
  rcases eq_of_isQuote hq with rfl | rfl | rfl
  · rw [token_text] at h
    cases hs : literal '"' s.length s with
    | error problem => rw [hs] at h; cases h
    | ok result =>
      rw [hs] at h
      cases h
      exact .text hs
  · rw [token_char] at h
    split at h
    · rename_i hs
      cases h
      exact .char hs
    · cases h
    · cases h
  · rw [token_piece] at h
    split at h
    · rename_i hs
      cases h
      exact .piece hs
    · cases h

theorem yields_of_negative (hn : opensNumber operand c s.head? = true)
    (h : token evaluates operand (c :: s) = .ok (found, rest)) :
    Yields evaluates operand c s found rest := by
  obtain rfl : c = '-' := by
    simp only [opensNumber, Bool.and_eq_true, beq_iff_eq] at hn
    exact hn.1.1
  rw [token_negative _ _ _ hn] at h
  split at h
  · rename_i hs
    cases h
    exact .negative hn hs
  · cases h

theorem yields_of_cons (hq : isQuote c = false) (hn : opensNumber operand c s.head? = false)
    (h : token evaluates operand (c :: s) = .ok (found, rest)) :
    Yields evaluates operand c s found rest := by
  rw [token_cons _ _ _ hq hn] at h
  split_ifs at h with hd hw
  · split at h
    · rename_i hs
      cases h
      exact .number hq hn hd hs
    · cases h
  · cases ht : wordToken evaluates ((c :: s).takeWhile isNamePart) with
    | error problem => rw [ht] at h; cases h
    | ok word =>
      rw [ht] at h
      cases h
      exact .word hq hn (Bool.eq_false_iff.2 hd) hw ht
  · exact .sign hq hn (Bool.eq_false_iff.2 hd) (Bool.eq_false_iff.2 hw) h

theorem Yields.token (h : Yields evaluates operand c s found rest) :
    token evaluates operand (c :: s) = .ok (found, rest) := by
  cases h with
  | text h => rw [token_text, h]; rfl
  | char h => rw [token_char, h]
  | piece h => rw [token_piece, h]
  | negative hn h => rw [token_negative _ _ _ hn, h]
  | number hq hn hd h => rw [token_cons _ _ _ hq hn, if_pos hd, h]
  | word hq hn hd hw h =>
    rw [token_cons _ _ _ hq hn, if_neg (by simp [hd]), if_pos hw, h]
    rfl
  | sign hq hn hd hw h =>
    rw [token_cons _ _ _ hq hn, if_neg (by simp [hd]), if_neg (by simp [hw]), h]

/-- The lexer reads a token in exactly these ways. -/
theorem token_eq_ok_iff : token evaluates operand (c :: s) = .ok (found, rest) ↔
    Yields evaluates operand c s found rest := by
  refine ⟨fun h => ?_, Yields.token⟩
  cases hq : isQuote c with
  | true => exact yields_of_quote hq h
  | false =>
    cases hn : opensNumber operand c s.head? with
    | true => exact yields_of_negative hn h
    | false => exact yields_of_cons hq hn h

/-- Behind the first character of a token nothing is given back. -/
theorem Yields.length_le (h : Yields evaluates operand c s found rest) : rest.length ≤ s.length := by
  cases h with
  | text h => exact Nat.le_of_lt (length_of_literal (by decide) (by decide) h)
  | char h => exact Nat.le_of_lt (length_of_literal (by decide) (by decide) h)
  | piece h => exact Nat.le_trans (Nat.le_of_lt (length_of_templatePiece h)) (length_afterOpening s)
  | negative hn h =>
    cases s with
    | nil => simp [opensNumber] at hn
    | cons d s =>
      have hd : d.isDigit := by
        simp only [opensNumber, Bool.and_eq_true, List.head?_cons, Option.any_some] at hn
        exact hn.2
      exact Nat.le_succ_of_le (length_of_number hd h)
  | number hq hn hd h => exact length_of_number hd h
  | word hq hn hd hw h =>
    rw [List.dropWhile_cons, if_pos (isNamePart_of_isNameStart hw)]
    exact (List.dropWhile_suffix _).length_le
  | sign hq hn hd hw h => exact length_of_sign h

/-- A token takes at least one character away. -/
theorem length_of_token (h : token evaluates operand s = .ok (found, rest)) :
    rest.length < s.length := by
  cases s with
  | nil => cases h
  | cons c s => exact Nat.lt_succ_of_le (token_eq_ok_iff.1 h).length_le

end

section

variable {a b : List Char}

theorem afterOpening_append (ha : a ≠ []) (hr : a ≠ ['\r']) (b : List Char) :
    afterOpening (a ++ b) = afterOpening a ++ b := by
  rcases a with - | ⟨c, a⟩
  · exact absurd rfl ha
  · by_cases hn : c = '\n'
    · subst hn
      rfl
    · by_cases hc : c = '\r'
      · subst hc
        rcases a with - | ⟨d, a⟩
        · exact absurd rfl hr
        · by_cases hd : d = '\n'
          · subst hd
            rfl
          · simp [afterOpening, hd]
      · simp [afterOpening, hn, hc]

/-- The opening of a template literal does not depend on what follows its first piece. -/
theorem templatePiece_afterOpening_append {text rest : List Char} {more : Bool}
    (h : templatePiece (afterOpening (a ++ b)) = some (text, more, rest))
    (hl : b.length ≤ rest.length) :
    ∃ a', rest = a' ++ b ∧ ∀ b', Boundary b' →
      templatePiece (afterOpening (a ++ b')) = some (text, more, a' ++ b') := by
  have hlt := length_of_templatePiece h
  -- a line break behind the opening is left out, so the cases are nothing, half of one, and more
  by_cases ha : a = []
  · subst ha
    have := length_afterOpening b
    rw [List.nil_append] at hlt
    omega
  · by_cases hr : a = ['\r']
    · -- the return would have to be the whole piece
      subst hr
      have short : (afterOpening (['\r'] ++ b)).length = b.length + 1 := by
        have := length_afterOpening (['\r'] ++ b)
        rw [List.length_append, List.length_singleton] at this
        omega
      have same : afterOpening (['\r'] ++ b) = '\r' :: b := by
        rcases b with - | ⟨c, b⟩
        · rfl
        · by_cases hc : c = '\n'
          · subst hc
            change b.length = b.length + 2 at short
            omega
          · simp [afterOpening, hc]
      rw [same] at h
      have hb : b.head? ≠ some '\n' := by
        rcases b with - | ⟨c, b⟩
        · simp
        · rintro hc
          cases hc
          change b.length = b.length + 2 at short
          omega
      rcases templatePiece_cases h with ⟨s', text', -, rfl, -, -⟩ | ⟨s', text', hc, -, -, -⟩ |
        ⟨hc, -, -, -, -⟩ | ⟨hc, -, -, -⟩ | ⟨text', -, -, h', -⟩
      · exact absurd rfl hb
      · cases hc
      · cases hc
      · cases hc
      · exact absurd (length_of_templatePiece h') (Nat.not_lt.2 hl)
    · rw [afterOpening_append ha hr] at h
      obtain ⟨a', he, hb⟩ := templatePiece_append h hl
      refine ⟨a', he, fun b' hb' => ?_⟩
      rw [afterOpening_append ha hr, hb b' hb']

theorem sign_append {rest : List Char} {found : Token} (ha : a ≠ []) (hb : Boundary b)
    (h : token.sign (a ++ b) = .ok (found, rest)) :
    ∃ a', rest = a' ++ b ∧ ∀ b', Boundary b' → token.sign (a ++ b') = .ok (found, a' ++ b') := by
  obtain ⟨sign, hlen, hsign⟩ := exists_signToken ha
  unfold token.sign at h ⊢
  rw [hsign b hb] at h
  cases sign with
  | none => cases h
  | some sign =>
    obtain ⟨sign, length⟩ := sign
    cases h
    have hl := hlen _ length rfl
    refine ⟨a.drop length, List.drop_append_of_le_length hl, fun b' hb' => ?_⟩
    simp only [hsign b' hb', List.drop_append_of_le_length hl]

theorem number_append {negative : Bool} {rest : List Char} {found : Token} (ha : a ≠ [])
    (hb : Boundary b) (h : number negative (a ++ b) = some (found, rest)) :
    ∃ a', rest = a' ++ b ∧
      ∀ b', Boundary b' → number negative (a ++ b') = some (found, a' ++ b') := by
  obtain ⟨result, hresult⟩ := exists_number negative ha
  rw [hresult b hb, Option.map_eq_some_iff] at h
  obtain ⟨⟨token, a'⟩, rfl, he⟩ := h
  cases he
  exact ⟨a', rfl, fun b' hb' => hresult b' hb'⟩

/-- Whether a minus belongs to a number is seen from the next character, which is no digit at a
boundary. -/
theorem opensNumber_append (operand : Bool) (c : Char) (hb : Boundary b) :
    opensNumber operand c (a ++ b).head? = opensNumber operand c a.head? := by
  cases a with
  | nil =>
    cases b with
    | nil => exact hb.elim
    | cons d b => simp [opensNumber, isDigit_of_isBoundary d hb]
  | cons d a => rfl

/-- How a token is read does not depend on what follows a boundary after it. -/
theorem Yields.append {evaluates operand : Bool} {c : Char} {rest : List Char} {found : Token}
    (hb : Boundary b) (h : Yields evaluates operand c (a ++ b) found rest)
    (hl : b.length ≤ rest.length) :
    ∃ a', rest = a' ++ b ∧ ∀ b', Boundary b' →
      Yields evaluates operand c (a ++ b') found (a' ++ b') := by
  cases h with
  -- a text, a character and a piece of a template end with a quote of their own
  | text h =>
    obtain ⟨a', he, hb'⟩ := literal_append (by decide) (by decide) h hl
    exact ⟨a', he, fun b' hb => .text (hb' b' hb _ (by simp))⟩
  | char h =>
    obtain ⟨a', he, hb'⟩ := literal_append (by decide) (by decide) h hl
    exact ⟨a', he, fun b' hb => .char (hb' b' hb _ (by simp))⟩
  | piece h =>
    obtain ⟨a', he, hb'⟩ := templatePiece_afterOpening_append h hl
    exact ⟨a', he, fun b' hb => .piece (hb' b' hb)⟩
  -- a number, a word and a sign do not go on at a boundary
  | negative hn h =>
    rw [opensNumber_append operand '-' hb] at hn
    have ha : a ≠ [] := by
      rintro rfl
      simp [opensNumber] at hn
    obtain ⟨a', he, hb'⟩ := number_append ha hb h
    exact ⟨a', he, fun b' hb =>
      .negative ((opensNumber_append operand '-' hb).trans hn) (hb' b' hb)⟩
  | number hq hn hd h =>
    rw [opensNumber_append operand c hb] at hn
    obtain ⟨a', he, hb'⟩ := number_append (List.cons_ne_nil c a) hb h
    exact ⟨a', he, fun b' hb =>
      .number hq ((opensNumber_append operand c hb).trans hn) hd (hb' b' hb)⟩
  | word hq hn hd hw h =>
    rw [opensNumber_append operand c hb] at hn
    have htake {b' : List Char} (hb' : Boundary b') :=
      takeWhile_append_boundary (a := c :: a) isNamePart_of_isBoundary hb'
    have hdrop {b' : List Char} (hb' : Boundary b') :=
      dropWhile_append_boundary (a := c :: a) isNamePart_of_isBoundary hb'
    rw [← List.cons_append, htake hb] at h
    refine ⟨(c :: a).dropWhile isNamePart, hdrop hb, fun b' hb' => ?_⟩
    rw [← hdrop hb']
    exact .word hq ((opensNumber_append operand c hb').trans hn) hd hw
      ((congrArg (wordToken evaluates) (htake hb')).trans h)
  | sign hq hn hd hw h =>
    rw [opensNumber_append operand c hb] at hn
    obtain ⟨a', he, hb'⟩ := sign_append (List.cons_ne_nil c a) hb h
    exact ⟨a', he, fun b' hb =>
      .sign hq ((opensNumber_append operand c hb).trans hn) hd hw (hb' b' hb)⟩

/-- A token does not depend on what follows a boundary after it. -/
theorem token_append {evaluates operand : Bool} {rest : List Char} {found : Token}
    (ha : a ≠ []) (hb : Boundary b) (h : token evaluates operand (a ++ b) = .ok (found, rest))
    (hl : b.length ≤ rest.length) :
    ∃ a', rest = a' ++ b ∧ ∀ b', Boundary b' →
      token evaluates operand (a ++ b') = .ok (found, a' ++ b') := by
  cases a with
  | nil => exact absurd rfl ha
  | cons c a =>
    obtain ⟨a', he, hb'⟩ := (token_eq_ok_iff.1 h).append hb hl
    exact ⟨a', he, fun b' hb => (hb' b' hb).token⟩

end

end Rulebook.Script.Lexer
