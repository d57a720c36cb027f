import Rulebook.Proofs.Compilation.Literal
import Rulebook.Proofs.Script.Cutting
import Rulebook.Proofs.Text.Runs
import Mathlib.Tactic.SplitIfs

/-!
# Lexemes

A text whose words and signs are known is cut into their tokens, wherever it stands: `cuts_lexemes`.
A lexeme may need to know the next character: a word ends where no letter follows, and a remark at the
end of its line.
-/

namespace Rulebook.Script

open Lexer

/-- A part of a text that is known to be cut in one way. -/
inductive Lexeme where
  | gap (blanks : List Char)
  /-- A comment up to the end of its line. -/
  | remark (words : List Char)
  | word (letters : List Char) (token : Token)
  | sign (c : Char)
  | text (s : String)

namespace Lexeme

/-- The characters of a lexeme. -/
def chars : Lexeme → List Char
  | gap blanks => blanks
  | remark words => '/' :: '/' :: words
  | word letters _ => letters
  | sign c => [c]
  | text s => '"' :: s.toList.flatMap Compilation.literalChar ++ ['"']

/-- The token of a lexeme. -/
def token? : Lexeme → Option Token
  | gap _ => none
  | remark _ => none
  | word _ token => some token
  | sign c => some (.sign (String.ofList [c]))
  | text s => some (.text s)

/-- Whether some characters are the letters of a word. -/
def isWord : List Char → Bool
  | [] => false
  | c :: rest => isNameStart c && rest.all isNamePart

/-- The signs that no other sign begins with. -/
def lonelySigns : List Char := ['(', ')', '\x7b', '\x7d', ',', ';']

/-- What has to hold of the lexeme and of the character after it. -/
def Fits (evaluates : Bool) (next : Option Char) : Lexeme → Prop
  | gap blanks => blanks.all Text.isBlank = true
  | remark words => '\n' ∉ words ∧ next = some '\n'
  | word letters token =>
    isWord letters = true ∧ wordToken evaluates letters = .ok token ∧ next.any isNamePart = false
  | sign c => c ∈ lonelySigns ∨ c = '=' ∧ next = some ' '
  | text _ => next ≠ some '"'

end Lexeme

/-- The characters of lexemes. -/
def charsOf (lexemes : List Lexeme) : List Char := lexemes.flatMap Lexeme.chars

/-- The tokens of lexemes that begin at a place. -/
def tokensOf (position : Position) : List Lexeme → List (Token × Position)
  | [] => []
  | lexeme :: rest =>
    (lexeme.token?.map (·, position)).toList ++ tokensOf (position.afterAll lexeme.chars) rest

/-- Whether every lexeme fits in front of the next one. -/
def AllFit (evaluates : Bool) (next : Option Char) : List Lexeme → Prop
  | [] => True
  | lexeme :: rest =>
    lexeme.Fits evaluates ((charsOf rest).head?.or next) ∧ AllFit evaluates next rest

namespace Lexer

/-- What the lexer remembers after a lexeme. -/
def Progress.after (progress : Progress) (lexeme : Lexeme) : Progress where
  position := progress.position.afterAll lexeme.chars
  braces := progress.braces
  operand := (lexeme.token?.map Token.opensOperand).getD progress.operand

theorem movedTo_eq (position : Position) (s rest : List Char) :
    movedTo position (s ++ rest) rest = position.afterAll s := by
  rw [movedTo, List.length_append, Nat.add_sub_cancel, List.take_left]

theorem Progress.past_eq (progress : Progress) (s rest : List Char) :
    progress.past (s ++ rest) rest =
      { progress with position := progress.position.afterAll s } := by
  rw [past, movedTo_eq]

theorem afterAll_append (position : Position) (s t : List Char) :
    position.afterAll (s ++ t) = (position.afterAll s).afterAll t := List.foldl_append

variable {evaluates : Bool} {progress : Progress} {rest : List Char}

/-! ### Gaps and remarks -/

theorem cuts_gap {blanks : List Char} (h : blanks.all Text.isBlank = true) :
    Cuts evaluates progress (blanks ++ rest) [] (progress.after (.gap blanks)) rest := by
  induction blanks generalizing progress with
  | nil => exact .done _ _
  | cons c blanks ih =>
    obtain ⟨hc, hb⟩ := Bool.and_eq_true_iff.1 h
    have first : scanStep evaluates progress (c :: blanks ++ rest) =
        .ok ([], progress.after (.gap [c]), blanks ++ rest) := by
      rw [List.cons_append, scanStep_blank (s := c :: (blanks ++ rest)) hc]
      exact congrArg (fun next => Except.ok ([], next, blanks ++ rest))
        (progress.past_eq [c] (blanks ++ rest))
    exact .step (List.cons_ne_nil _ _) first (ih hb)

theorem dropWhile_remark {words : List Char} (h : '\n' ∉ words) (rest : List Char) :
    (words ++ '\n' :: rest).dropWhile (· ≠ '\n') = '\n' :: rest := by
  induction words with
  | nil => rfl
  | cons c words ih =>
    obtain ⟨hc, hw⟩ := not_or.1 (mt List.mem_cons.2 h)
    rw [List.cons_append, List.dropWhile_cons, if_pos (by simpa using Ne.symm hc), ih hw]

theorem cuts_remark {words : List Char} (h : '\n' ∉ words) (rest : List Char) :
    Cuts evaluates progress ('/' :: '/' :: words ++ '\n' :: rest) []
      (progress.after (.remark words)) ('\n' :: rest) := by
  have hdrop : ('/' :: '/' :: words ++ '\n' :: rest).dropWhile (· ≠ '\n') = '\n' :: rest :=
    dropWhile_remark (by simpa using h) rest
  have first : scanStep evaluates progress ('/' :: '/' :: words ++ '\n' :: rest) =
      .ok ([], progress.after (.remark words), '\n' :: rest) := by
    rw [scanStep_line rfl rfl, hdrop, Progress.past_eq]
    rfl
  exact .step (List.cons_ne_nil _ _) first (.done _ _)

/-! ### Tokens -/

/-- A token that ends where its characters end. -/
theorem cuts_token {s : List Char} {found : Token} (hs : s ≠ [])
    (hblank : s.head?.any Text.isBlank = false) (hcomment : s.head? ≠ some '/')
    (hbraces : bracesOf progress.braces found = some progress.braces)
    (h : token evaluates progress.operand (s ++ rest) = .ok (found, rest)) :
    Cuts evaluates progress (s ++ rest) [(found, progress.position)]
      { position := progress.position.afterAll s
        braces := progress.braces, operand := found.opensOperand } rest := by
  obtain ⟨c, s, rfl⟩ := List.exists_cons_of_ne_nil hs
  have hc : c ≠ '/' := fun hc => hcomment (by rw [hc]; rfl)
  have two (d : Char) : (c :: s ++ rest).take 2 ≠ ['/', d] := by
    intro h
    rw [List.cons_append, List.take_succ_cons] at h
    exact hc (List.cons.inj h).1
  have first : scanStep evaluates progress (c :: s ++ rest) = .ok ([(found, progress.position)],
      { position := progress.position.afterAll (c :: s)
        braces := progress.braces, operand := found.opensOperand }, rest) := by
    rw [scanStep_token (s := c :: s ++ rest) hblank (two '/') (two '*'), h]
    simp only [hbraces, movedTo_eq]
  exact .step (List.cons_ne_nil _ _) first (.done _ _)

theorem toNat_lt_of_isNameStart {c : Char} (h : isNameStart c = true) : c.toNat < 128 := by
  rw [isNameStart, Bool.or_eq_true, beq_iff_eq] at h
  rcases h with h | rfl
  · have h : (c.isUpper || c.isLower) = true := h
    rw [Bool.or_eq_true] at h
    rcases h with h | h
    · have h : c.toNat ≤ 90 := (of_decide_eq_true h).2
      omega
    · have h : c.toNat ≤ 122 := of_decide_eq_true (Bool.and_eq_true_iff.1 h).2
      omega
  · decide

/-- What a name begins with is no blank, no digit, no quote and none of the signs. -/
theorem of_isNameStart {c : Char} (h : isNameStart c = true) : Text.isBlank c = false ∧
    c.isDigit = false ∧ c ≠ '/' ∧ isQuote c = false ∧ c ≠ '-' := by
  have small : ∀ n < 128, isNameStart (Char.ofNat n) = true → Text.isBlank (Char.ofNat n) = false ∧
      (Char.ofNat n).isDigit = false ∧ Char.ofNat n ≠ '/' ∧ isQuote (Char.ofNat n) = false ∧
      Char.ofNat n ≠ '-' := by decide
  have := small c.toNat (toNat_lt_of_isNameStart h)
  rw [Char.ofNat_toNat] at this
  exact this h

/-- Letters up to the end of a word are that word. -/
theorem token_letters {letters : List Char} {operand : Bool} (hw : Lexeme.isWord letters = true)
    (hrest : rest.head?.any isNamePart = false) : token evaluates operand (letters ++ rest) =
      (wordToken evaluates letters).map (·, rest) := by
  cases letters with
  | nil => cases hw
  | cons c letters =>
    obtain ⟨hc, hl⟩ := Bool.and_eq_true_iff.1 hw
    obtain ⟨-, hdigit, -, hquote, hminus⟩ := of_isNameStart hc
    have hall : (c :: letters).all isNamePart = true :=
      Bool.and_eq_true_iff.2 ⟨isNamePart_of_isNameStart hc, hl⟩
    have hnumber : opensNumber operand c (letters ++ rest).head? = false := by
      simp [opensNumber, hminus]
    rw [List.cons_append, token_cons _ _ _ hquote hnumber, if_neg (by simp [hdigit]), if_pos hc,
      ← List.cons_append, takeWhile_append_stop hall hrest, dropWhile_append_stop hall hrest]

theorem token_word {letters : List Char} {found : Token} {operand : Bool}
    (hw : Lexeme.isWord letters = true) (ht : wordToken evaluates letters = .ok found)
    (hrest : rest.head?.any isNamePart = false) :
    token evaluates operand (letters ++ rest) = .ok (found, rest) := by
  rw [token_letters hw hrest, ht]
  rfl

theorem bracesOf_nil_word {letters : List Char} {found : Token}
    (h : wordToken evaluates letters = .ok found) : bracesOf [] found = some [] := by
  unfold wordToken at h
  simp only at h
  split_ifs at h <;> cases h <;> rfl

/-! ### Signs -/

theorem not_contains_of_head {signs : List String} {c : Char} {s : List Char}
    (h : ∀ sign ∈ signs, c ∉ sign.toList) (hc : c ∈ s) :
    signs.contains (String.ofList s) = false := by
  rw [List.contains_eq_mem, decide_eq_false_iff_not]
  intro hm
  refine h _ hm ?_
  rw [String.toList_ofList]
  exact hc

/-- No longer sign has one of the lonely signs in it. -/
theorem not_mem_of_lonelySigns : ∀ c ∈ Lexeme.lonelySigns,
    (∀ sign ∈ Token.keptSigns ++ Token.longSigns ++ ["!in"], c ∉ sign.toList) ∧
    (∀ sign ∈ Token.pairSigns, sign.toList.head? ≠ some c) ∧
    Token.singleSigns.contains (String.ofList [c]) = true := by
  have h : Lexeme.lonelySigns.all (fun c => decide (
      (∀ sign ∈ Token.keptSigns ++ Token.longSigns ++ ["!in"], c ∉ sign.toList) ∧
      (∀ sign ∈ Token.pairSigns, sign.toList.head? ≠ some c) ∧
      Token.singleSigns.contains (String.ofList [c]) = true)) = true := by
    decide
  intro c hc
  exact of_decide_eq_true (List.all_eq_true.1 h c hc)

theorem signToken_lonely {c : Char} (hc : c ∈ Lexeme.lonelySigns) (rest : List Char) :
    signToken (c :: rest) = some (.sign (String.ofList [c]), 1) := by
  obtain ⟨hlong, hpair, hsingle⟩ := not_mem_of_lonelySigns c hc
  have kept (n : Nat) : Token.keptSigns.contains (String.ofList ((c :: rest).take (n + 1))) = false :=
    not_contains_of_head (c := c) (fun sign h => hlong sign (by simp [h])) (by simp)
  have long : Token.longSigns.contains (String.ofList ((c :: rest).take 3)) = false :=
    not_contains_of_head (c := c) (fun sign h => hlong sign (by simp [h])) (by simp)
  have negated : String.ofList ((c :: rest).take 3) ≠ "!in" := by
    intro h
    refine hlong "!in" (by simp) ?_
    rw [← h, String.toList_ofList]
    simp
  have pair : Token.pairSigns.contains (String.ofList ((c :: rest).take 2)) = false := by
    rw [List.contains_eq_mem, decide_eq_false_iff_not]
    intro hm
    refine hpair _ hm ?_
    rw [String.toList_ofList]
    rfl
  rw [signToken]
  simp only [kept 2, kept 1, long, pair, negated, Bool.false_eq_true, if_false]
  exact if_pos hsingle

theorem signToken_equals (rest : List Char) :
    signToken ('=' :: ' ' :: rest) = some (.sign "=", 1) := by
  have none {signs : List String} (h : ∀ sign ∈ signs, ' ' ∉ sign.toList) (n : Nat) :
      signs.contains (String.ofList (('=' :: ' ' :: rest).take (n + 2))) = false :=
    not_contains_of_head h (by simp)
  have kept := @none Token.keptSigns (by decide)
  have long := @none Token.longSigns (by decide)
  have pair := @none Token.pairSigns (by decide)
  have negated : String.ofList (('=' :: ' ' :: rest).take 3) ≠ "!in" := by
    have := @none ["!in"] (by decide) 1
    rw [List.contains_eq_mem, decide_eq_false_iff_not, List.mem_singleton] at this
    exact this
  rw [signToken]
  simp only [kept 1, kept 0, long 1, pair 0, negated, Bool.false_eq_true, if_false]
  rfl

/-- A sign that fits in front of what comes next. -/
theorem signToken_of_fits {c : Char} (h : (Lexeme.sign c).Fits evaluates rest.head?) :
    signToken (c :: rest) = some (.sign (String.ofList [c]), 1) := by
  rcases h with h | ⟨rfl, h⟩
  · exact signToken_lonely h rest
  · cases rest with
    | nil => cases h
    | cons d rest =>
      cases h
      exact signToken_equals rest

theorem mem_of_fits {c : Char} {next : Option Char} (h : (Lexeme.sign c).Fits evaluates next) :
    c ∈ '=' :: Lexeme.lonelySigns :=
  h.elim (.tail _) fun h => h.1 ▸ .head _

theorem of_mem_signs : ∀ c ∈ '=' :: Lexeme.lonelySigns, Text.isBlank c = false ∧ c ≠ '/' ∧
    isQuote c = false ∧ c ≠ '-' ∧ c.isDigit = false ∧ isNameStart c = false := by
  have h : ('=' :: Lexeme.lonelySigns).all (fun c => decide (Text.isBlank c = false ∧ c ≠ '/' ∧
      isQuote c = false ∧ c ≠ '-' ∧ c.isDigit = false ∧ isNameStart c = false)) = true := by
    decide
  intro c hc
  exact of_decide_eq_true (List.all_eq_true.1 h c hc)

theorem token_sign {c : Char} {operand : Bool} (h : (Lexeme.sign c).Fits evaluates rest.head?) :
    token evaluates operand (c :: rest) = .ok (.sign (String.ofList [c]), rest) := by
  obtain ⟨-, -, hquote, hminus, hdigit, hname⟩ := of_mem_signs c (mem_of_fits h)
  have hnumber : opensNumber operand c rest.head? = false := by simp [opensNumber, hminus]
  rw [token_cons _ _ _ hquote hnumber, if_neg (by simp [hdigit]), if_neg (by simp [hname]),
    token.sign, signToken_of_fits h]
  rfl

/-! ### Texts -/

theorem token_of_text {s : String} {operand : Bool} (hrest : rest.head? ≠ some '"') :
    token evaluates operand ((Lexeme.text s).chars ++ rest) = .ok (.text s, rest) := by
  have := (Compilation.spelled_flatMap s.toList).token evaluates operand hrest
  rw [String.ofList_toList] at this
  simpa [Lexeme.chars] using this

end Lexer

/-! ### Lexemes in a row -/

open Lexer

variable {evaluates : Bool} {progress : Progress} {rest : List Char}

/-- A lexeme that fits is cut in one way. -/
theorem Lexeme.cuts {lexeme : Lexeme} (h : lexeme.Fits evaluates rest.head?)
    (hbraces : progress.braces = []) : Cuts evaluates progress (lexeme.chars ++ rest)
      (lexeme.token?.map (·, progress.position)).toList (progress.after lexeme) rest := by
  cases lexeme with
  | gap blanks => exact cuts_gap h
  | remark words =>
    obtain ⟨hw, hnext⟩ := h
    cases rest with
    | nil => cases hnext
    | cons c rest =>
      cases hnext
      exact cuts_remark hw rest
  | word letters found =>
    obtain ⟨hw, ht, hrest⟩ := h
    obtain ⟨c, letters, rfl⟩ : ∃ c rest, letters = c :: rest := by
      cases letters with
      | nil => cases hw
      | cons c letters => exact ⟨c, letters, rfl⟩
    obtain ⟨hblank, -, hslash, -⟩ := of_isNameStart (Bool.and_eq_true_iff.1 hw).1
    refine cuts_token (s := c :: letters) (List.cons_ne_nil _ _) hblank (by simpa using hslash) ?_
      (token_word hw ht hrest)
    rw [hbraces]
    exact bracesOf_nil_word ht
  | sign c =>
    obtain ⟨hblank, hslash, -⟩ := of_mem_signs c (mem_of_fits h)
    refine cuts_token (s := [c]) (List.cons_ne_nil _ _) hblank (by simpa using hslash) ?_
      (token_sign h)
    rw [hbraces]
    rfl
  | text s =>
    refine cuts_token (List.cons_ne_nil _ _) rfl ?_ ?_ (token_of_text h)
    · intro hslash
      cases hslash
    · rw [hbraces]
      rfl

/-- Lexemes that fit in front of each other are cut into their tokens. -/
theorem cuts_lexemes {lexemes : List Lexeme} (h : AllFit evaluates rest.head? lexemes)
    (hbraces : progress.braces = []) : Cuts evaluates progress (charsOf lexemes ++ rest)
      (tokensOf progress.position lexemes) (lexemes.foldl Progress.after progress) rest := by
  induction lexemes generalizing progress with
  | nil => exact .done _ _
  | cons lexeme lexemes ih =>
    obtain ⟨hfits, hall⟩ := h
    have hchars : charsOf (lexeme :: lexemes) ++ rest =
        lexeme.chars ++ (charsOf lexemes ++ rest) := by
      rw [charsOf, List.flatMap_cons, List.append_assoc]
      rfl
    rw [hchars]
    refine (Lexeme.cuts ?_ hbraces).append (ih hall hbraces)
    rwa [List.head?_append]

end Rulebook.Script
