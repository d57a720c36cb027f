import Mathlib.Data.List.Induction
import Rulebook.Proofs.Surface.Pieces
import Rulebook.Surface.Image

/-!
# Scanning a rule text

A text can be scanned character by character for what stands in literals and in comments: `Mode` is
what the scan has to remember, and scans of texts in a row compose (`Mode.run_append`). The pieces of
a text are all closed exactly if its scan ends outside literals and block comments (`closed_iff`), and
the script form of such a text is scanned to the same end (`run_toScript`).
-/

namespace Rulebook.Surface

/-- What the next character of a text belongs to. -/
inductive Mode where
  | code
  /-- Code after a slash. -/
  | slash
  | literal (quote : Char)
  /-- A literal after a backslash. -/
  | escape (quote : Char)
  /-- A line comment. -/
  | remark
  /-- A block comment. -/
  | block
  /-- A block comment after an asterisk. -/
  | star
  deriving Repr, DecidableEq

namespace Mode

/-- The mode after a character of code that no slash precedes. -/
def ofCode (c : Char) : Mode :=
  if isQuote c then literal c else if c = '/' then slash else code

/-- The mode after the next character. -/
def step : Mode → Char → Mode
  | code, c => ofCode c
  | slash, c => if c = '/' then remark else if c = '*' then block else ofCode c
  | literal quote, c =>
    if c = '\\' then escape quote else if c = quote then code else literal quote
  | escape quote, _ => literal quote
  | remark, c => if c = '\n' then code else remark
  | block, c => if c = '*' then star else block
  | star, c => if c = '/' then code else if c = '*' then star else block

/-- The mode after a text. -/
def run (mode : Mode) (s : List Char) : Mode := s.foldl step mode

/-- Whether the text may end here: neither in a literal nor in a block comment. -/
def isOutside : Mode → Bool
  | code => true
  | slash => true
  | remark => true
  | _ => false

@[simp] theorem run_nil (mode : Mode) : run mode [] = mode := rfl

@[simp] theorem run_cons (mode : Mode) (c : Char) (s : List Char) :
    run mode (c :: s) = run (step mode c) s := rfl

@[simp] theorem run_append (mode : Mode) (s t : List Char) :
    run mode (s ++ t) = run (run mode s) t := List.foldl_append

/-- The characters that leave code as it is. -/
def isSober (c : Char) : Bool := !isQuote c && c != '/'

theorem run_code_of_sober {s : List Char} (h : s.all isSober = true) : run code s = code := by
  induction s with
  | nil => rfl
  | cons c s ih =>
    simp only [List.all_cons, Bool.and_eq_true, isSober, Bool.not_eq_true', bne_iff_ne] at h
    have hstep : step code c = code := by simp [step, ofCode, h.1]
    rw [run_cons, hstep]
    exact ih (by simpa [isSober] using h.2)

/-- The characters that neither begin nor end a literal or a comment. -/
def isPlain (c : Char) : Bool := isSober c && c != '*' && c != '\n'

theorem isPlain_iff {c : Char} :
    isPlain c = true ↔ isQuote c = false ∧ c ≠ '/' ∧ c ≠ '*' ∧ c ≠ '\n' := by
  simp [isPlain, isSober, and_assoc]

theorem run_code_of_plain {s : List Char} (h : s.all isPlain = true) : run code s = code := by
  refine run_code_of_sober (List.all_eq_true.2 fun c hc => ?_)
  have := List.all_eq_true.1 h c hc
  simp only [isPlain, Bool.and_eq_true] at this
  exact this.1.1

/-- A word or a sign, as far as the scan is concerned. -/
def IsPlainText (s : List Char) : Prop := s ≠ [] ∧ s.all isPlain = true

end Mode

/-! ### Closed pieces -/

/-- Whether the inside of a literal has a closing quote that no backslash takes along. -/
def closesLiteral (quote : Char) : List Char → Bool
  | [] => false
  | ['\\'] => false
  | '\\' :: _ :: rest => closesLiteral quote rest
  | c :: rest => c == quote || closesLiteral quote rest

/-- Whether the inside of a block comment has an end marker. -/
def closesBlock : List Char → Bool
  | [] => false
  | '*' :: '/' :: _ => true
  | _ :: rest => closesBlock rest

/-- Whether a piece is complete: a literal has its closing quote and a block comment its end marker.
Only the last piece of a text can be open. -/
def Piece.closed : Piece → Bool
  | .literal (quote :: inside) => closesLiteral quote inside
  | .single (quote :: inside) => closesLiteral quote inside
  | .comment ('/' :: '*' :: inside) => closesBlock inside
  | _ => true

open Mode

theorem splitLiteral_append (quote : Char) (s : List Char) :
    (splitLiteral quote s).1 ++ (splitLiteral quote s).2 = s := by
  fun_induction splitLiteral quote s <;> simp_all

theorem splitBlock_append (s : List Char) : (splitBlock s).1 ++ (splitBlock s).2 = s := by
  fun_induction splitBlock s <;> simp_all

theorem closesLiteral_cons {c : Char} (quote : Char) (h : c ≠ '\\') (rest : List Char) :
    closesLiteral quote (c :: rest) = (c == quote || closesLiteral quote rest) := by
  rw [closesLiteral]
  all_goals
    intros
    exact absurd ‹_› h

theorem closesBlock_cons {c : Char} {rest : List Char}
    (h : ∀ tail, c = '*' → rest = '/' :: tail → False) :
    closesBlock (c :: rest) = closesBlock rest := by
  rw [closesBlock]
  exact h

/-- A character that neither ends the text nor takes one along is no backslash. -/
theorem ne_backslash {c : Char} {rest : List Char} (hlast : c = '\\' → rest = [] → False)
    (hpair : ∀ (d : Char) (tail : List Char), c = '\\' → rest = d :: tail → False) : c ≠ '\\' := by
  intro h
  cases rest with
  | nil => exact hlast h rfl
  | cons d tail => exact hpair d tail h rfl

/-- The scan of a literal ends where its closing quote is. -/
theorem run_splitLiteral (quote : Char) (s : List Char) :
    closesLiteral quote (splitLiteral quote s).1 = true ∧
        run (.literal quote) (splitLiteral quote s).1 = .code ∨
      closesLiteral quote (splitLiteral quote s).1 = false ∧ (splitLiteral quote s).2 = [] ∧
        (run (.literal quote) (splitLiteral quote s).1).isOutside = false := by
  fun_induction splitLiteral quote s with
  | case1 => exact .inr ⟨rfl, rfl, rfl⟩
  | case2 => exact .inr ⟨rfl, rfl, rfl⟩
  | case3 c rest inside after heq ih =>
    rw [heq] at ih
    exact ih
  | case4 rest hlast hpair =>
    have hne := ne_backslash hlast hpair
    left
    simp [closesLiteral_cons _ hne, step, hne]
  | case5 c rest hlast hpair hquote inside after heq ih =>
    have hne := ne_backslash hlast hpair
    have hstep : step (.literal quote) c = .literal quote := by simp [step, hne, hquote]
    rw [heq] at ih
    simpa [closesLiteral_cons _ hne, hquote, hstep] using ih

/-- The scan of a block comment ends where its end marker is. -/
theorem run_splitBlock (s : List Char) :
    closesBlock (splitBlock s).1 = true ∧ run .block (splitBlock s).1 = .code ∨
      closesBlock (splitBlock s).1 = false ∧ (splitBlock s).2 = [] ∧
        (run .block (splitBlock s).1).isOutside = false := by
  fun_induction splitBlock s with
  | case1 => exact .inr ⟨rfl, rfl, rfl⟩
  | case2 rest => exact .inl ⟨rfl, rfl⟩
  | case3 c rest hmark inside after heq ih =>
    rw [heq] at ih
    have happend := splitBlock_append rest
    rw [heq] at happend
    have hinside : ∀ tail, c = '*' → inside = '/' :: tail → False := by
      rintro tail hc rfl
      exact hmark (tail ++ after) hc happend.symm
    simp only [closesBlock_cons hinside, run_cons]
    by_cases hc : c = '*'
    · cases inside with
      | nil =>
        subst hc
        simpa [closesBlock, step, isOutside] using ih
      | cons d inside =>
        -- after an asterisk only a slash is read in another way
        have hd : d ≠ '/' := by
          rintro rfl
          exact hinside inside hc rfl
        have hstep : step (step .block c) d = step .block d := by simp [step, hc, hd]
        rw [run_cons, hstep]
        exact ih
    · have hstep : step .block c = .block := by simp [step, hc]
      rw [hstep]
      exact ih

/-! ### The first piece of a text -/

/-- A piece whose characters mean nothing to the scan. -/
def Piece.IsWritten : Piece → Prop
  | .strict _ => True
  | .objectOpen => True
  | .brace => True
  | .word _ text => IsPlainText text
  | .json _ => True
  | .number text => IsPlainText text
  | _ => False

/-- `Starts s piece rest` says how the text `s` can start with `piece` and go on with `rest`, as far as
literals and comments are concerned: where a word or a number ends is left open. -/
inductive Starts : List Char → Piece → List Char → Prop where
  | literal {quote : Char} (s : List Char) (h : quote = '"' ∨ quote = '\x60') :
    Starts (quote :: s) (.literal (quote :: (splitLiteral quote s).1)) (splitLiteral quote s).2
  | single (s : List Char) :
    Starts ('\'' :: s) (.single ('\'' :: (splitLiteral '\'' s).1)) (splitLiteral '\'' s).2
  | remark (s : List Char) :
    Starts ('/' :: '/' :: s) (.comment ('/' :: '/' :: s.takeWhile (· != '\n')))
      (s.dropWhile (· != '\n'))
  | block (s : List Char) :
    Starts ('/' :: '*' :: s) (.comment ('/' :: '*' :: (splitBlock s).1)) (splitBlock s).2
  | written (piece : Piece) (rest : List Char) (h : piece.IsWritten) :
    Starts (piece.source ++ rest) piece rest
  | other {c : Char} (rest : List Char) (hquote : isQuote c = false)
    (hslash : c = '/' → rest.head? ≠ some '/' ∧ rest.head? ≠ some '*') :
    Starts (c :: rest) (.other c) rest

/-- A class without the characters that a scan looks for has plain characters only. -/
theorem isPlain_of_class {p : Char → Bool} {c : Char} (h : p c = true)
    (hp : ['"', '\x60', '\'', '/', '*', '\n'].all (fun d => !p d) = true) : isPlain c = true := by
  have hne (d : Char) (hd : d ∈ ['"', '\x60', '\'', '/', '*', '\n']) : c ≠ d := by
    rintro rfl
    have := List.all_eq_true.1 hp c hd
    rw [h] at this
    cases this
  simp [isPlain, isSober, isQuote, hne]

/-- A character and characters of a class that follow it. -/
theorem isPlainText_cons {p : Char → Bool} {c : Char} {tail : List Char} (hc : isPlain c = true)
    (hp : ['"', '\x60', '\'', '/', '*', '\n'].all (fun d => !p d) = true)
    (htail : tail.all p = true) : IsPlainText (c :: tail) := by
  refine ⟨List.cons_ne_nil _ _, ?_⟩
  rw [List.all_cons, hc, Bool.true_and, List.all_eq_true]
  intro d hd
  exact isPlain_of_class (List.all_eq_true.1 htail d hd) hp

theorem Leads.starts {afterDot : Bool} {s rest : List Char} {piece : Piece}
    (h : Leads afterDot s piece rest) : Starts s piece rest := by
  cases h with
  | literal s hquote => exact .literal s hquote
  | single s => exact .single s
  | remark s => exact .remark s
  | block s => exact .block s
  | word hstart htail =>
    exact .written (.word _ _) _
      (isPlainText_cons (isPlain_of_class hstart (by decide)) (by decide) htail)
  | @json writing =>
    cases writing
    · exact .written (.json false) rest trivial
    · exact .written (.json true) rest trivial
  | number hdigit htail =>
    exact .written (.number _) _
      (isPlainText_cons (isPlain_of_class hdigit (by decide)) (by decide) htail)
  | strict negated =>
    cases negated
    · exact .written (.strict false) rest trivial
    · exact .written (.strict true) rest trivial
  | objectOpen => exact .written .objectOpen _ trivial
  | brace => exact .written .brace _ trivial
  | other halone => exact .other _ halone.quote halone.slash

theorem starts_next (afterDot : Bool) (c : Char) (rest : List Char) :
    Starts (c :: rest) (next afterDot c rest).1 (next afterDot c rest).2 :=
  (leads_next afterDot c rest).starts

theorem Starts.source_append {s rest : List Char} {piece : Piece} (h : Starts s piece rest) :
    piece.source ++ rest = s := by
  cases h with
  | literal s => exact congrArg _ (splitLiteral_append _ s)
  | single s => exact congrArg _ (splitLiteral_append _ s)
  | remark s => exact congrArg _ (congrArg _ List.takeWhile_append_dropWhile)
  | block s => exact congrArg _ (congrArg _ (splitBlock_append s))
  | written => rfl
  | other => rfl

theorem isPlainText_source {piece : Piece} (h : piece.IsWritten) : IsPlainText piece.source := by
  cases piece with
  | strict negated => cases negated <;> exact ⟨List.cons_ne_nil _ _, rfl⟩
  | json writing => cases writing <;> exact ⟨List.cons_ne_nil _ _, rfl⟩
  | objectOpen => exact ⟨List.cons_ne_nil _ _, rfl⟩
  | brace => exact ⟨List.cons_ne_nil _ _, rfl⟩
  | _ => first | exact h | exact h.elim

theorem isPlainText_image {piece : Piece} (h : piece.IsWritten) (written : List Char) :
    IsPlainText (piece.image written) := by
  cases piece with
  | strict negated => cases negated <;> exact ⟨List.cons_ne_nil _ _, rfl⟩
  | json writing => cases writing <;> exact ⟨List.cons_ne_nil _ _, rfl⟩
  | objectOpen => exact ⟨List.cons_ne_nil _ _, rfl⟩
  | brace =>
    rw [Piece.image]
    split <;> exact ⟨List.cons_ne_nil _ _, rfl⟩
  | word afterDot text =>
    rw [Piece.image, wordImage]
    split
    · exact h
    split
    · exact ⟨List.cons_ne_nil _ _, rfl⟩
    split
    · exact ⟨List.cons_ne_nil _ _, rfl⟩
    · exact h
  | _ => first | exact h | exact h.elim

theorem run_remark {s : List Char} (h : '\n' ∉ s) : run .remark s = .remark := by
  induction s with
  | nil => rfl
  | cons c s ih =>
    simp only [List.mem_cons, not_or] at h
    rw [run_cons, step, if_neg (Ne.symm h.1), ih h.2]

theorem run_line (s : List Char) : run .remark (s.takeWhile (· != '\n')) = .remark := by
  refine run_remark fun h => ?_
  have := List.all_eq_true.1 List.all_takeWhile _ h
  simp at this

/-- The mode after a character that is no quote, and the text of one. -/
theorem step_of_not_isQuote {c : Char} (h : isQuote c = false) :
    step .code c = if c = '/' then .slash else .code := by
  simp [step, ofCode, h]

/-- Whether a text that begins with a character, if it is not empty, is scanned after a mode as if it
followed code. -/
def Joins : Mode → Option Char → Prop
  | .code, _ => True
  | .slash, head => head ≠ some '/' ∧ head ≠ some '*'
  | .remark, head => head = none ∨ head = some '\n'
  | _, _ => False

theorem Joins.isOutside {mode : Mode} {head : Option Char} (h : Joins mode head) :
    mode.isOutside = true := by
  cases mode <;> first | rfl | exact h.elim

theorem Joins.run_cons {mode : Mode} {c : Char} (h : Joins mode (some c)) (s : List Char) :
    run mode (c :: s) = run .code (c :: s) := by
  cases mode with
  | code => rfl
  | slash =>
    simp only [Joins, ne_eq, Option.some.injEq] at h
    simp [step, h]
  | remark =>
    simp only [Joins, reduceCtorEq, Option.some.injEq, false_or] at h
    subst c
    rfl
  | _ => exact h.elim

theorem Joins.run_eq {mode : Mode} {s : List Char} (h : Joins mode s.head?) (hs : s ≠ []) :
    run mode s = run .code s := by
  obtain ⟨c, s, rfl⟩ := List.exists_cons_of_ne_nil hs
  exact h.run_cons s

/-- What follows can be replaced by a text that starts with another character of code. -/
theorem Joins.of_ne {mode : Mode} {c d : Char} (h : Joins mode (some c)) (hc : c ≠ '\n')
    (hd : d ≠ '/' ∧ d ≠ '*') : Joins mode (some d) := by
  cases mode with
  | code => trivial
  | slash => simpa [Joins] using hd
  | remark =>
    simp only [Joins, reduceCtorEq, Option.some.injEq, false_or] at h
    exact absurd h hc
  | _ => exact h.elim

/-- After a closed piece the text goes on in code, and an open piece is the last one. -/
theorem Starts.cases {s rest : List Char} {piece : Piece} (h : Starts s piece rest) :
    piece.closed = true ∧ Joins (run .code piece.source) rest.head? ∨
      piece.closed = false ∧ rest = [] ∧ (run .code piece.source).isOutside = false := by
  cases h with
  | @literal quote s hquote =>
    have hstep : step .code quote = .literal quote := by rcases hquote with rfl | rfl <;> rfl
    rw [Piece.closed, Piece.source, run_cons, hstep]
    rcases run_splitLiteral quote s with ⟨hcloses, hrun⟩ | hopen
    · rw [hrun]
      exact .inl ⟨hcloses, trivial⟩
    · exact .inr hopen
  | single s =>
    rw [Piece.closed, Piece.source, run_cons]
    rcases run_splitLiteral '\'' s with ⟨hcloses, hrun⟩ | hopen
    · left
      refine ⟨hcloses, ?_⟩
      show Joins (run (.literal '\'') _) _
      rw [hrun]
      trivial
    · exact .inr hopen
  | remark s =>
    left
    refine ⟨rfl, ?_⟩
    show Joins (run .remark _) _
    rw [run_line]
    cases hrest : s.dropWhile (· != '\n') with
    | nil => exact .inl rfl
    | cons c rest =>
      have hhead := List.head_dropWhile_not (· != '\n') (by rw [hrest]; exact List.cons_ne_nil _ _)
      right
      simpa [hrest] using hhead
  | block s =>
    rcases run_splitBlock s with ⟨hcloses, hrun⟩ | hopen
    · left
      refine ⟨hcloses, ?_⟩
      show Joins (run .block _) _
      rw [hrun]
      trivial
    · exact .inr hopen
  | written piece rest hwritten =>
    left
    rw [run_code_of_plain (isPlainText_source hwritten).2]
    constructor
    · cases piece <;> first | rfl | exact hwritten.elim
    · trivial
  | @other c rest hquote hslash =>
    left
    refine ⟨rfl, ?_⟩
    show Joins (step .code c) rest.head?
    rw [step_of_not_isQuote hquote]
    split
    · exact hslash ‹_›
    · trivial

/-- The scan of a text that begins with a closed piece. -/
theorem Starts.run_eq {s rest : List Char} {piece : Piece} (h : Starts s piece rest)
    (hclosed : piece.closed = true) (hrest : rest ≠ []) : run .code s = run .code rest := by
  rcases h.cases with ⟨-, hjoins⟩ | ⟨hopen, -⟩
  · rw [← h.source_append, run_append, hjoins.run_eq hrest]
  · rw [hclosed] at hopen
    cases hopen

theorem Starts.isOutside_eq {s rest : List Char} {piece : Piece} (h : Starts s piece rest) :
    (run .code s).isOutside = (piece.closed && (run .code rest).isOutside) := by
  rcases h.cases with ⟨hclosed, hjoins⟩ | ⟨hopen, hnil, hrun⟩
  · rw [hclosed, Bool.true_and]
    by_cases hrest : rest = []
    · have hsource := h.source_append
      rw [hrest, List.append_nil] at hsource
      rw [hrest, ← hsource]
      exact hjoins.isOutside
    · rw [h.run_eq hclosed hrest]
  · have hsource := h.source_append
    rw [hnil, List.append_nil] at hsource
    rw [hopen, ← hsource, hrun, Bool.false_and]

/-- All pieces of a text are closed exactly if its scan ends outside literals and block comments. -/
theorem closed_iff (afterDot : Bool) (s : List Char) :
    (∀ piece ∈ cutFrom afterDot s, piece.closed = true) ↔ (run .code s).isOutside = true := by
  fun_induction cutFrom afterDot s with
  | case1 => simp [isOutside]
  | case2 afterDot c rest first ih =>
    rw [List.forall_mem_cons, ih, (starts_next afterDot c rest).isOutside_eq, Bool.and_eq_true]

theorem source_cutFrom (afterDot : Bool) (s : List Char) :
    (cutFrom afterDot s).flatMap Piece.source = s := by
  fun_induction cutFrom afterDot s with
  | case1 => rfl
  | case2 afterDot c rest first ih =>
    rw [List.flatMap_cons, ih]
    exact (starts_next afterDot c rest).source_append

/-- The scan of a piece ends in a line comment only if the piece is one. -/
theorem Starts.exists_remark {s rest : List Char} {piece : Piece} (h : Starts s piece rest)
    (hrun : run .code piece.source = .remark) :
    ∃ words, piece = .comment ('/' :: '/' :: words) := by
  have hinside {mode : Mode} (h : mode = .remark) (hmode : mode = .code ∨ mode.isOutside = false) :
      False := by
    subst h
    rcases hmode with h | h <;> cases h
  cases h with
  | @literal quote s hquote =>
    have hstep : step .code quote = .literal quote := by rcases hquote with rfl | rfl <;> rfl
    rw [Piece.source, run_cons, hstep] at hrun
    refine (hinside hrun ?_).elim
    rcases run_splitLiteral quote s with ⟨-, hcode⟩ | ⟨-, -, hopen⟩
    · exact .inl hcode
    · exact .inr hopen
  | single s =>
    refine (hinside hrun ?_).elim
    rcases run_splitLiteral '\'' s with ⟨-, hcode⟩ | ⟨-, -, hopen⟩
    · exact .inl hcode
    · exact .inr hopen
  | remark s => exact ⟨_, rfl⟩
  | block s =>
    refine (hinside hrun ?_).elim
    rcases run_splitBlock s with ⟨-, hcode⟩ | ⟨-, -, hopen⟩
    · exact .inl hcode
    · exact .inr hopen
  | written piece rest hwritten =>
    exact (hinside hrun (.inl (run_code_of_plain (isPlainText_source hwritten).2))).elim
  | @other c rest hquote _ =>
    rw [Piece.source, run_cons, run_nil, step_of_not_isQuote hquote] at hrun
    split at hrun <;> cases hrun

/-- A text ends in a line comment only if its last piece is one. -/
theorem exists_remark_of_run {s : List Char} (h : run .code s = .remark) (afterDot : Bool) :
    ∃ front words, cutFrom afterDot s = front ++ [.comment ('/' :: '/' :: words)] := by
  fun_induction cutFrom afterDot s with
  | case1 => cases h
  | case2 afterDot c rest first ih =>
    have hstarts := starts_next afterDot c rest
    have hsource := hstarts.source_append
    by_cases hnil : first.2 = []
    · rw [show (next afterDot c rest).2 = [] from hnil, List.append_nil] at hsource
      rw [← hsource] at h
      obtain ⟨words, hwords⟩ := hstarts.exists_remark h
      refine ⟨[], words, ?_⟩
      rw [hnil, ← hwords]
      simp [cutFrom, first]
    · have hclosed : first.1.closed = true := by
        have hall := (closed_iff afterDot (c :: rest)).2 (by rw [h]; rfl)
        rw [cutFrom] at hall
        exact hall _ (List.mem_cons_self ..)
      rw [hstarts.run_eq hclosed hnil] at h
      obtain ⟨front, words, hwords⟩ := ih h
      exact ⟨first.1 :: front, words, by rw [hwords]; rfl⟩

/-! ### Blanks -/

namespace Mode

/-- Only quotes open a literal. -/
def Proper : Mode → Prop
  | literal quote => isQuote quote = true
  | escape quote => isQuote quote = true
  | _ => True

theorem Proper.step {mode : Mode} (h : Proper mode) (c : Char) : Proper (mode.step c) := by
  have hcode : Proper (ofCode c) := by
    unfold ofCode
    split
    · assumption
    · split <;> trivial
  cases mode with
  | code => exact hcode
  | slash =>
    simp only [Mode.step]
    split
    · trivial
    · split
      · trivial
      · exact hcode
  | literal quote =>
    simp only [Mode.step]
    split
    · exact h
    · split
      · trivial
      · exact h
  | escape quote => exact h
  | remark => simp only [Mode.step]; split <;> trivial
  | block => simp only [Mode.step]; split <;> trivial
  | star => simp only [Mode.step]; split <;> first | trivial | (split <;> trivial)

theorem Proper.run {mode : Mode} (h : Proper mode) (s : List Char) : Proper (mode.run s) := by
  induction s generalizing mode with
  | nil => exact h
  | cons c s ih => exact ih (h.step c)

/-- A literal or a block comment goes on after a character that is neither a quote nor a slash. -/
theorem Proper.isOutside_of_step {mode : Mode} (h : Proper mode) {c : Char}
    (hquote : isQuote c = false) (hslash : c ≠ '/') (hstep : (mode.step c).isOutside = true) :
    mode.isOutside = true := by
  cases mode with
  | literal quote =>
    have hne : c ≠ quote := by
      rintro rfl
      exact absurd h (by simp [Proper, hquote])
    simp only [Mode.step, if_neg hne] at hstep
    split at hstep <;> cases hstep
  | escape quote => cases hstep
  | block =>
    simp only [Mode.step] at hstep
    split at hstep <;> cases hstep
  | star =>
    simp only [Mode.step, if_neg hslash] at hstep
    split at hstep <;> cases hstep
  | _ => rfl

end Mode

theorem of_isBlank {c : Char} (h : Text.isBlank c = true) :
    isQuote c = false ∧ c ≠ '/' ∧ step .code c = .code := by
  have hne (d : Char) (hd : Text.isBlank d = false) : c ≠ d := by
    rintro rfl
    rw [hd] at h
    cases h
  have hquote : isQuote c = false := by
    simp [isQuote, hne '"' (by decide), hne '\x60' (by decide), hne '\'' (by decide)]
  have hslash := hne '/' (by decide)
  exact ⟨hquote, hslash, by rw [step_of_not_isQuote hquote, if_neg hslash]⟩

theorem run_trimLeft (s : List Char) : run .code (Text.trimLeft s) = run .code s := by
  induction s with
  | nil => rfl
  | cons c s ih =>
    rw [Text.trimLeft, List.dropWhile_cons]
    split
    · rename_i hc
      rw [run_cons, (of_isBlank hc).2.2]
      exact ih
    · rfl

/-- No literal or block comment ends in the blanks behind a text. -/
theorem isOutside_trim {s : List Char} (h : (run .code s).isOutside = true) :
    (run .code (Text.trim s)).isOutside = true := by
  rw [← run_trimLeft] at h
  rw [Text.trim, Text.trimRight]
  generalize Text.trimLeft s = s at h ⊢
  induction s using List.reverseRecOn with
  | nil => exact h
  | append_singleton s c ih =>
    rw [List.reverse_append, List.reverse_singleton, List.singleton_append, List.dropWhile_cons]
    split
    · rename_i hc
      obtain ⟨hquote, hslash, -⟩ := of_isBlank hc
      rw [run_append] at h
      have hproper : Proper (run .code s) := Proper.run (show Proper .code from trivial) s
      exact ih (hproper.isOutside_of_step hquote hslash h)
    · simpa using h

/-! ### The script form -/

theorem requoteBody_cons {c : Char} (hquote : c ≠ '"') (hbackslash : c ≠ '\\')
    (rest : List Char) : requoteBody (c :: rest) = c :: requoteBody rest := by
  rw [requoteBody]
  all_goals
    intros
    first | exact absurd ‹_› hquote | exact absurd ‹_› hbackslash

theorem requoteBody_escape {c : Char} (h : c ≠ '\'') (rest : List Char) :
    requoteBody ('\\' :: c :: rest) = '\\' :: c :: requoteBody rest := by
  rw [requoteBody]
  exact h

/-- The inside of a single-quoted literal is spelled for double quotes without an end of the literal
coming up. -/
theorem exists_run_requoteBody {s : List Char}
    (h : closesLiteral '\'' (splitLiteral '\'' s).1 = true) :
    ∃ body, (splitLiteral '\'' s).1 = body ++ ['\''] ∧
      run (.literal '"') (requoteBody body) = .literal '"' := by
  generalize hq : '\'' = quote at *
  fun_induction splitLiteral quote s with
  | case1 => cases h
  | case2 => cases h
  | case3 c rest inside after heq ih =>
    rw [heq] at ih
    obtain ⟨body, hbody, hrun⟩ := ih h
    refine ⟨'\\' :: c :: body, by simpa using hbody, ?_⟩
    by_cases hc : c = '\''
    · subst hc
      exact hrun
    · rw [requoteBody_escape hc]
      exact hrun
  | case4 rest hlast hpair => exact ⟨[], rfl, rfl⟩
  | case5 c rest hlast hpair hquote inside after heq ih =>
    have hne := ne_backslash hlast hpair
    rw [closesLiteral_cons _ hne, beq_eq_false_iff_ne.2 hquote, Bool.false_or] at h
    rw [heq] at ih
    obtain ⟨body, hbody, hrun⟩ := ih h
    refine ⟨c :: body, by simpa using hbody, ?_⟩
    by_cases hc : c = '"'
    · subst hc
      exact hrun
    · rw [requoteBody_cons hc hne, run_cons, step, if_neg hne, if_neg hc]
      exact hrun

theorem run_requote {s : List Char} (h : closesLiteral '\'' (splitLiteral '\'' s).1 = true) :
    run .code (requote ('\'' :: (splitLiteral '\'' s).1)) = .code := by
  obtain ⟨body, hbody, hrun⟩ := exists_run_requoteBody h
  have hinside : literalBody ('\'' :: (splitLiteral '\'' s).1) = body := by
    simp [literalBody, hbody]
  show run (.literal '"') (requoteBody (literalBody _) ++ ['"']) = _
  rw [hinside, run_append, hrun]
  rfl

/-- The image of a closed piece is scanned to the same end as the piece. -/
theorem Starts.run_image {s rest : List Char} {piece : Piece} (h : Starts s piece rest)
    (hclosed : piece.closed = true) {mode : Mode} (hjoins : Joins mode s.head?)
    (written : List Char) : run mode (piece.image written) = run .code piece.source := by
  cases h with
  | literal s => exact hjoins.run_cons _
  | single s =>
    have hcloses : closesLiteral '\'' (splitLiteral '\'' s).1 = true := hclosed
    have hsource : run .code (Piece.single ('\'' :: (splitLiteral '\'' s).1)).source = .code := by
      rcases run_splitLiteral '\'' s with ⟨-, hrun⟩ | ⟨hopen, -⟩
      · exact hrun
      · rw [hcloses] at hopen
        cases hopen
    rw [hsource, ← run_requote hcloses]
    exact (hjoins.of_ne (by decide) (by decide)).run_cons _
  | remark s => exact hjoins.run_cons _
  | block s => exact hjoins.run_cons _
  | written piece rest hwritten =>
    obtain ⟨hsource, hplain⟩ := isPlainText_source hwritten
    obtain ⟨himage, hplain'⟩ := isPlainText_image hwritten written
    obtain ⟨c, tail, hc⟩ := List.exists_cons_of_ne_nil hsource
    obtain ⟨d, tail', hd⟩ := List.exists_cons_of_ne_nil himage
    have hfirst : isPlain c = true := List.all_eq_true.1 hplain c (by simp [hc])
    have hfirst' : isPlain d = true := List.all_eq_true.1 hplain' d (by simp [hd])
    obtain ⟨-, hslash, hstar, -⟩ := isPlain_iff.1 hfirst'
    rw [run_code_of_plain hplain, ← run_code_of_plain hplain', hd]
    rw [hc] at hjoins
    exact (hjoins.of_ne (isPlain_iff.1 hfirst).2.2.2 ⟨hslash, hstar⟩).run_cons _
  | other => exact hjoins.run_cons _

/-- The script form of pieces that are all closed is scanned to the same end as their text. -/
theorem run_imagesAfter {afterDot : Bool} {s written : List Char}
    (hjoins : Joins (run .code written.reverse) s.head?)
    (hclosed : ∀ piece ∈ cutFrom afterDot s, piece.closed = true) :
    run .code (imagesAfter written (cutFrom afterDot s)).reverse =
      run (run .code written.reverse) s := by
  fun_induction cutFrom afterDot s generalizing written with
  | case1 => rfl
  | case2 afterDot c rest first =>
    rename_i ih
    have hstarts := starts_next afterDot c rest
    obtain ⟨hfirst, hrest⟩ := List.forall_mem_cons.1 hclosed
    have himage : run .code ((first.1.image written).reverse ++ written).reverse =
        run .code first.1.source := by
      rw [List.reverse_append, List.reverse_reverse, run_append]
      exact hstarts.run_image hfirst hjoins written
    have hnext : Joins (run .code first.1.source) first.2.head? := by
      rcases hstarts.cases with ⟨-, hnext⟩ | ⟨hopen, -⟩
      · exact hnext
      · rw [hfirst] at hopen
        cases hopen
    rw [imagesAfter, ih (by rwa [himage]) hrest, himage, ← run_append, hstarts.source_append,
      hjoins.run_eq (List.cons_ne_nil _ _)]

/-- The script form of a text ends where the text ends: outside literals and block comments, and in a
line comment only if the text does. -/
theorem run_toScript {text : String} (h : ∀ piece ∈ cut text, piece.closed = true) :
    run .code (toScript text).toList = run .code text.toList := by
  rw [toScript, String.toList_ofList]
  exact run_imagesAfter trivial h

end Rulebook.Surface
