import Rulebook.Proofs.Surface.Rewriting
import Rulebook.Proofs.Text.Blanks

/-!
# Braces behind comments

Whether a brace opens an object literal is decided by what is written before it, and comments are part
of what is written. `AwaitsValue` is the reading of the decision: a text awaits a value if it ends, blanks
aside, in one of a few signs or in the word `return`. The script text written for a text awaits a value
exactly if the text does (`expectsExpression_images`), so `brace_after_comment` can say for every comment
in front of a brace, and for every text before it, what becomes of the brace.
-/

namespace Rulebook.Surface

open Mode

/-! ### Where a value is awaited -/

/-- The signs that a value follows. -/
def valueSigns : List Char := ['=', '(', ',', ':', '[', '?']

/-- `AwaitsValue s` says that the text `s` ends, blanks aside, in one of a few signs or in the word
`return`. -/
inductive AwaitsValue : List Char → Prop where
  | sign (front : List Char) {c : Char} {blanks : List Char} (hc : c ∈ valueSigns)
    (hblanks : blanks.all Text.isBlank = true) : AwaitsValue (front ++ c :: blanks)
  | word {front blanks : List Char} (hfront : front.getLast?.any isWordPart = false)
    (hblanks : blanks.all Text.isBlank = true) :
    AwaitsValue (front ++ ("return".toList ++ blanks))

section Decision

variable {c : Char} {blanks written : List Char}

theorem expectsExpression_append_blanks (h : blanks.all Text.isBlank = true) :
    expectsExpression (blanks ++ written) = expectsExpression written := by
  rw [expectsExpression, expectsExpression, List.dropWhile_append_of_pos (List.all_eq_true.1 h)]

theorem expectsExpression_blank_cons (h : Text.isBlank c = true) :
    expectsExpression (c :: written) = expectsExpression written :=
  @expectsExpression_append_blanks [c] written (by simp [h])

theorem expectsExpression_cons (h : Text.isBlank c = false) :
    expectsExpression (c :: written) = (valueSigns.contains c ||
      (isWordPart c && (c :: written).takeWhile isWordPart == "nruter".toList)) := by
  rw [expectsExpression, List.dropWhile_cons_of_neg (by simp [h])]
  by_cases hc : c ∈ valueSigns
  · rw [List.contains_iff_mem.2 hc, Bool.true_or]
    simp only [valueSigns, List.mem_cons, List.not_mem_nil, or_false] at hc
    simp [hc]
  · rw [Bool.eq_false_iff.2 (mt List.contains_iff_mem.1 hc), Bool.false_or]
    simp only [valueSigns, List.mem_cons, List.not_mem_nil, or_false] at hc
    exact if_neg hc

/-- No value is awaited behind any other sign, nor behind a word that does not end as `return` does. -/
theorem expectsExpression_of_last (hblank : Text.isBlank c = false) (hsign : c ∉ valueSigns)
    (hlast : c ≠ 'n') : expectsExpression (c :: written) = false := by
  rw [expectsExpression_cons hblank, Bool.eq_false_iff.2 (mt List.contains_iff_mem.1 hsign),
    Bool.false_or]
  cases hpart : isWordPart c with
  | false => rfl
  | true => simp [hpart, hlast]

/-- What stands before a character that is no part of a word is not looked at, unless blanks alone
follow it. -/
theorem expectsExpression_append_of_stop (hpart : isWordPart c = false) {reached : List Char}
    (h : reached.all Text.isBlank = false) :
    expectsExpression (reached ++ c :: written) = expectsExpression reached := by
  induction reached with
  | nil => cases h
  | cons d reached ih =>
    cases hd : Text.isBlank d with
    | true =>
      rw [List.cons_append, expectsExpression_blank_cons hd, expectsExpression_blank_cons hd]
      exact ih (by simpa [hd] using h)
    | false =>
      rw [List.cons_append, expectsExpression_cons hd, expectsExpression_cons hd, ← List.cons_append,
        @takeWhile_append_of_head isWordPart (c :: written) hpart]

/-- What stands before a sign is not looked at. -/
theorem expectsExpression_append_of_sign (hblank : Text.isBlank c = false)
    (hpart : isWordPart c = false) (reached : List Char) :
    expectsExpression (reached ++ c :: written) = expectsExpression (reached ++ [c]) := by
  induction reached with
  | nil =>
    rw [List.nil_append, List.nil_append, expectsExpression_cons hblank,
      expectsExpression_cons hblank, hpart]
    rfl
  | cons d reached ih =>
    cases hd : Text.isBlank d with
    | true =>
      rw [List.cons_append, List.cons_append, expectsExpression_blank_cons hd,
        expectsExpression_blank_cons hd]
      exact ih
    | false =>
      simp only [List.cons_append, expectsExpression_cons hd]
      rw [← List.cons_append, ← List.cons_append,
        @takeWhile_append_of_head isWordPart (c :: written) hpart,
        @takeWhile_append_of_head isWordPart [c] hpart]

end Decision

theorem awaitsValue_of_expectsExpression {s : List Char} (h : expectsExpression s.reverse = true) :
    AwaitsValue s := by
  have hsplit := List.takeWhile_append_dropWhile (p := Text.isBlank) (l := s.reverse)
  have hblanks : (s.reverse.takeWhile Text.isBlank).reverse.all Text.isBlank = true := by
    rw [List.all_reverse]
    exact List.all_takeWhile
  have hs : s = (s.reverse.dropWhile Text.isBlank).reverse ++
      (s.reverse.takeWhile Text.isBlank).reverse := by
    rw [← List.reverse_append, hsplit, List.reverse_reverse]
  rw [← hsplit, expectsExpression_append_blanks List.all_takeWhile] at h
  have hhead := head_dropWhile Text.isBlank s.reverse
  rw [hs]
  generalize s.reverse.dropWhile Text.isBlank = reached at h hhead
  generalize (s.reverse.takeWhile Text.isBlank).reverse = blanks at hblanks
  cases reached with
  | nil => cases h
  | cons c rest =>
    rw [expectsExpression_cons (by simpa using hhead), Bool.or_eq_true, Bool.and_eq_true,
      beq_iff_eq] at h
    rcases h with hsign | ⟨-, hword⟩
    · rw [List.reverse_cons, List.append_assoc]
      exact .sign _ (List.contains_iff_mem.1 hsign) hblanks
    · -- the longest word at the end is `return`, so what precedes it ends in no word
      have hrest := List.takeWhile_append_dropWhile (p := isWordPart) (l := c :: rest)
      rw [hword] at hrest
      rw [← hrest, List.reverse_append, List.append_assoc]
      refine .word ?_ hblanks
      rw [List.getLast?_reverse]
      exact head_dropWhile isWordPart (c :: rest)

theorem AwaitsValue.expectsExpression {s : List Char} (h : AwaitsValue s) :
    expectsExpression s.reverse = true := by
  cases h with
  | @sign front c blanks hc hblanks =>
    rw [List.reverse_append, List.reverse_cons, List.append_assoc,
      expectsExpression_append_blanks (by rwa [List.all_reverse])]
    have hall : valueSigns.all (fun c => !Text.isBlank c) = true := by decide
    have hvisible : Text.isBlank c = false := by simpa using List.all_eq_true.1 hall c hc
    rw [List.singleton_append, expectsExpression_cons hvisible, List.contains_iff_mem.2 hc,
      Bool.true_or]
  | @word front blanks hfront hblanks =>
    rw [List.reverse_append, List.reverse_append, List.append_assoc,
      expectsExpression_append_blanks (by rwa [List.all_reverse])]
    have hword : "return".toList.reverse = 'n' :: "ruter".toList := rfl
    have hrun : (("return".toList.reverse ++ front.reverse).takeWhile isWordPart) =
        "nruter".toList :=
      takeWhile_append_stop (by decide) (by rwa [List.head?_reverse])
    rw [hword, List.cons_append] at hrun ⊢
    rw [expectsExpression_cons (by decide), hrun]
    rfl

/-- The decision about a brace is the one that `AwaitsValue` reads off the text before it. -/
theorem expectsExpression_iff (s : List Char) :
    expectsExpression s.reverse = true ↔ AwaitsValue s :=
  ⟨awaitsValue_of_expectsExpression, AwaitsValue.expectsExpression⟩

instance (s : List Char) : Decidable (AwaitsValue s) :=
  decidable_of_iff _ (expectsExpression_iff s)

theorem decide_awaitsValue (s : List Char) :
    decide (AwaitsValue s) = expectsExpression s.reverse := by
  rw [Bool.eq_iff_iff, decide_eq_true_iff, expectsExpression_iff]

/-! ### Script text awaits what its rule text awaits -/

/-- Script text and the rule text it is written for, both in reverse, bring about the same decision
before a text that begins with `next`: now, and behind a word that `next` goes on with. -/
structure Alike (next : Option Char) (written seen : List Char) : Prop where
  expects : expectsExpression written = expectsExpression seen
  word : next.any isWordPart = true → written.takeWhile isWordPart = seen.takeWhile isWordPart

theorem Alike.cons {c : Char} {written seen : List Char} (h : Alike (some c) written seen)
    (next : Option Char) : Alike next (c :: written) (c :: seen) := by
  have hword : (c :: written).takeWhile isWordPart = (c :: seen).takeWhile isWordPart := by
    rw [List.takeWhile_cons, List.takeWhile_cons]
    split
    · rename_i hc
      rw [h.word hc]
    · rfl
  refine ⟨?_, fun _ => hword⟩
  cases hblank : Text.isBlank c with
  | true => rw [expectsExpression_blank_cons hblank, expectsExpression_blank_cons hblank, h.expects]
  | false => rw [expectsExpression_cons hblank, expectsExpression_cons hblank, hword]

theorem Alike.append {copied written seen : List Char} (h : Alike copied.head? written seen)
    (hcopied : copied ≠ []) (next : Option Char) :
    Alike next (copied.reverse ++ written) (copied.reverse ++ seen) := by
  induction copied generalizing written seen with
  | nil => exact absurd rfl hcopied
  | cons c copied ih =>
    rw [List.reverse_cons, List.append_assoc, List.append_assoc]
    cases copied with
    | nil => exact h.cons next
    | cons d copied => exact ih (h.cons _) (List.cons_ne_nil _ _)

/-- Behind signs that no value follows. -/
theorem alike_of_last {c d : Char} (hc : Text.isBlank c = false ∧ c ∉ valueSigns ∧ c ≠ 'n')
    (hd : Text.isBlank d = false ∧ d ∉ valueSigns ∧ d ≠ 'n') {next : Option Char}
    (hnext : next.any isWordPart = false ∨ isWordPart c = false ∧ isWordPart d = false)
    (written seen : List Char) : Alike next (c :: written) (d :: seen) := by
  refine ⟨?_, fun hpart => ?_⟩
  · rw [expectsExpression_of_last hc.1 hc.2.1 hc.2.2, expectsExpression_of_last hd.1 hd.2.1 hd.2.2]
  · rcases hnext with hnone | ⟨hc, hd⟩
    · rw [hnone] at hpart
      cases hpart
    · rw [List.takeWhile_cons_of_neg (by simp [hc]), List.takeWhile_cons_of_neg (by simp [hd])]

theorem Leads.source_ne_nil {afterDot : Bool} {s rest : List Char} {piece : Piece}
    (h : Leads afterDot s piece rest) : piece.source ≠ [] ∧ piece.source.head? = s.head? := by
  cases h with
  | strict negated => cases negated <;> exact ⟨List.cons_ne_nil _ _, rfl⟩
  | json writing => cases writing <;> exact ⟨List.cons_ne_nil _ _, rfl⟩
  | _ => exact ⟨List.cons_ne_nil _ _, rfl⟩

/-- A text and its last character, in reverse. -/
theorem exists_reverse_of_getLast? {s : List Char} {c : Char} (h : s.getLast? = some c)
    (more : List Char) : ∃ front, s.reverse ++ more = c :: front := by
  obtain ⟨front, rfl⟩ := List.getLast?_eq_some_iff.1 h
  exact ⟨front.reverse ++ more, by rw [List.reverse_append]; rfl⟩

/-- Behind a word that does not stay as it is. -/
theorem alike_word {afterDot : Bool} {word : List Char} (h : wordImage afterDot word ≠ word)
    {next : Option Char} (hnext : next.any isWordPart = false) (written seen : List Char) :
    Alike next ((wordImage afterDot word).reverse ++ written) (word.reverse ++ seen) := by
  rw [wordImage] at h ⊢
  split at h
  · exact absurd rfl h
  rename_i hdot
  rw [if_neg hdot]
  split at h
  · rename_i hunit
    rw [if_pos hunit]
    rcases hunit with rfl | rfl
    · exact alike_of_last (by decide) (by decide) (.inl hnext) _ _
    · exact alike_of_last (by decide) (by decide) (.inl hnext) _ _
  rename_i hunit
  rw [if_neg hunit]
  split at h
  · rename_i hvar
    rw [if_pos hvar, hvar]
    exact alike_of_last (by decide) (by decide) (.inl hnext) _ _
  · exact absurd rfl h

/-- A closed piece and its image bring about the same decision. -/
theorem Leads.alike {afterDot : Bool} {s rest written seen : List Char} {piece : Piece}
    (h : Leads afterDot s piece rest) (hclosed : piece.closed = true)
    (halike : Alike s.head? written seen) :
    Alike rest.head? ((piece.image written).reverse ++ written) (piece.source.reverse ++ seen) := by
  obtain ⟨hne, hhead⟩ := h.source_ne_nil
  -- a piece that is copied is no matter; of the others the last character decides
  by_cases hcopied : piece.image written = piece.source
  · rw [hcopied]
    exact Alike.append (by rwa [hhead]) hne _
  cases h with
  | single s =>
    have hquote : (requote ('\'' :: (splitLiteral '\'' s).1)).getLast? = some '"' := by
      simp [requote, List.getLast?_cons]
    have hsingle : ('\'' :: (splitLiteral '\'' s).1).getLast? = some '\'' := by
      simp [List.getLast?_cons, getLast?_of_closesLiteral hclosed]
    obtain ⟨front, himage⟩ := exists_reverse_of_getLast? hquote written
    obtain ⟨front', hsource⟩ := exists_reverse_of_getLast? hsingle seen
    rw [Piece.image, Piece.source, himage, hsource]
    exact alike_of_last (by decide) (by decide) (.inr (by decide)) _ _
  | word _ _ hrest _ => exact alike_word hcopied hrest _ _
  | json writing _ hrest =>
    cases writing <;> exact alike_of_last (by decide) (by decide) (.inl hrest) _ _
  | strict negated =>
    have hequals (more : List Char) :
        expectsExpression ('=' :: more) = true ∧ ('=' :: more).takeWhile isWordPart = [] := by
      rw [expectsExpression_cons (by decide), List.takeWhile_cons_of_neg (by decide)]
      exact ⟨rfl, rfl⟩
    cases negated <;>
      exact ⟨(hequals _).1.trans (hequals _).1.symm, fun _ => (hequals _).2.trans (hequals _).2.symm⟩
  | brace =>
    rw [Piece.image] at hcopied ⊢
    split at hcopied
    · rename_i hexpects
      rw [if_pos hexpects]
      exact alike_of_last (by decide) (by decide) (.inr (by decide)) _ _
    · exact absurd rfl hcopied
  | _ => exact absurd rfl hcopied

theorem alike_images {afterDot : Bool} {s written seen : List Char}
    (hclosed : ∀ piece ∈ cutFrom afterDot s, piece.closed = true)
    (h : Alike s.head? written seen) :
    Alike none ((images written (cutFrom afterDot s)).reverse ++ written) (s.reverse ++ seen) := by
  fun_induction cutFrom afterDot s generalizing written seen with
  | case1 => exact h
  | case2 afterDot c rest first =>
    rename_i ih
    obtain ⟨hfirst, hrest⟩ := List.forall_mem_cons.1 hclosed
    have hleads := leads_next afterDot c rest
    have hstep := ih hrest (hleads.alike hfirst h)
    rw [images, List.reverse_append, List.append_assoc, ← hleads.starts.source_append,
      List.reverse_append, List.append_assoc]
    exact hstep

/-- Script text awaits a value exactly if the text that it is written for does. -/
theorem expectsExpression_images {s : List Char} (h : (run .code s).isOutside = true) :
    expectsExpression (images [] (cutFrom false s)).reverse = expectsExpression s.reverse := by
  have := (alike_images ((closed_iff false s).2 h) (⟨rfl, fun _ => rfl⟩ : Alike s.head? [] [])).expects
  rwa [List.append_nil, List.append_nil] at this

/-! ### Comments and blanks -/

/-- `IsComment s` says that the text `s` is one complete comment: a block comment up to the first end
marker, or a line comment with its line break. -/
inductive IsComment : List Char → Prop where
  | block {words : List Char} (h : ¬['*', '/'] <:+: words ++ ['*']) :
    IsComment ('/' :: '*' :: (words ++ ['*', '/']))
  | line {words : List Char} (h : '\n' ∉ words) : IsComment ('/' :: '/' :: (words ++ ['\n']))

theorem splitBlock_of_markless {words : List Char} (h : ¬['*', '/'] <:+: words ++ ['*'])
    (rest : List Char) : splitBlock (words ++ ['*', '/'] ++ rest) = (words ++ ['*', '/'], rest) := by
  induction words with
  | nil => rfl
  | cons c words ih =>
    have hwords : ¬['*', '/'] <:+: words ++ ['*'] :=
      fun hmarked => h (hmarked.trans (List.suffix_cons c _).isInfix)
    have hmark : ∀ tail, c = '*' → words ++ ['*', '/'] ++ rest = '/' :: tail → False := by
      rintro tail rfl htail
      cases words with
      | nil => cases htail
      | cons d words =>
        cases htail
        exact h ⟨[], words ++ ['*'], rfl⟩
    rw [List.cons_append, List.cons_append, splitBlock_cons hmark, ih hwords]

/-- A piece of which the image is the piece itself wherever it stands. -/
def Piece.IsCopy (piece : Piece) : Prop := ∀ written, piece.image written = piece.source

theorem isCopy_comment (text : List Char) : (Piece.comment text).IsCopy := fun _ => rfl

theorem isCopy_other (c : Char) : (Piece.other c).IsCopy := fun _ => rfl

theorem images_of_isCopy {pieces : List Piece} (h : ∀ piece ∈ pieces, piece.IsCopy)
    (written : List Char) : images written pieces = pieces.flatMap Piece.source := by
  induction pieces generalizing written with
  | nil => rfl
  | cons piece rest ih =>
    obtain ⟨hpiece, hrest⟩ := List.forall_mem_cons.1 h
    rw [images, hpiece written, ih hrest, List.flatMap_cons]

theorem images_append (written : List Char) (first second : List Piece) :
    images written (first ++ second) =
      images written first ++ images ((images written first).reverse ++ written) second := by
  induction first generalizing written with
  | nil => rfl
  | cons piece rest ih =>
    rw [List.cons_append, images, ih, images, List.append_assoc, List.reverse_append,
      List.append_assoc]

theorem leads_blank {c : Char} (h : Text.isBlank c = true) (afterDot : Bool) (rest : List Char) :
    Leads afterDot (c :: rest) (.other c) rest := by
  obtain ⟨-, hstart, hdigit, hsigns⟩ := of_isBlank_eq_true h
  simp only [List.mem_cons, List.not_mem_nil, or_false, not_or] at hsigns
  obtain ⟨-, -, -, hslash, hequals, hbang, hhash, hbrace, -⟩ := hsigns
  exact .other ⟨(of_isBlank h).1, hstart, hdigit, hbrace, fun h => absurd h hslash,
    fun h => absurd h hhash, fun h => absurd h (not_or.2 ⟨hequals, hbang⟩)⟩

theorem cutFrom_blanks {blanks : List Char} (h : blanks.all Text.isBlank = true)
    (rest : List Char) :
    cutFrom false (blanks ++ rest) = blanks.map .other ++ cutFrom false rest := by
  induction blanks with
  | nil => rfl
  | cons c blanks ih =>
    rw [List.all_cons, Bool.and_eq_true] at h
    have hdot : (Piece.other c == .other '.') = false := by
      rw [beq_eq_false_iff_ne]
      rintro ⟨⟩
      exact absurd h.1 (by decide)
    rw [List.cons_append, (leads_blank h.1 false _).cutFrom_eq, hdot, ih h.2]
    rfl

/-- A text of comments and blanks can stand in front of any text that does not follow a dot, and it is
copied. -/
structure IsGap (s : List Char) : Prop where
  whole : Whole s
  copied : ∀ piece ∈ cutFrom false s, piece.IsCopy

/-- A text that is cut into the same copied pieces in front of any text. -/
theorem isGap_of_cutFrom {s : List Char} {pieces : List Piece}
    (hcut : ∀ rest, cutFrom false (s ++ rest) = pieces ++ cutFrom false rest)
    (hcopied : ∀ piece ∈ pieces, piece.IsCopy) : IsGap s := by
  have hself := hcut []
  rw [List.append_nil, cutFrom, List.append_nil] at hself
  refine ⟨fun rest => ?_, ?_⟩
  · rw [hcut, hself]
  · rwa [hself]

theorem isGap_blanks {blanks : List Char} (h : blanks.all Text.isBlank = true) : IsGap blanks := by
  refine isGap_of_cutFrom (cutFrom_blanks h) fun piece hpiece => ?_
  obtain ⟨c, -, rfl⟩ := List.mem_map.1 hpiece
  exact isCopy_other c

theorem IsGap.append {s t : List Char} (hs : IsGap s) (ht : IsGap t) : IsGap (s ++ t) := by
  refine ⟨hs.whole.append ht.whole, fun piece hpiece => ?_⟩
  rw [hs.whole t, List.mem_append] at hpiece
  exact hpiece.elim (hs.copied piece) (ht.copied piece)

theorem IsComment.isGap {s : List Char} (h : IsComment s) : IsGap s := by
  cases h with
  | @block words h =>
    have hcut (rest : List Char) : cutFrom false ('/' :: '*' :: (words ++ ['*', '/']) ++ rest) =
        [.comment ('/' :: '*' :: (words ++ ['*', '/']))] ++ cutFrom false rest := by
      have hleads := @Leads.block false (words ++ ['*', '/'] ++ rest)
      rw [splitBlock_of_markless h rest] at hleads
      exact hleads.cutFrom_eq
    refine isGap_of_cutFrom hcut fun piece hpiece => ?_
    rw [List.mem_singleton.1 hpiece]
    exact isCopy_comment _
  | @line words h =>
    have hwords : words.all (· != '\n') = true :=
      List.all_eq_true.2 fun c hc => by
        rw [bne_iff_ne]
        rintro rfl
        exact h hc
    -- the line break is not part of the comment, but a piece of its own
    have hcut (rest : List Char) : cutFrom false ('/' :: '/' :: (words ++ ['\n']) ++ rest) =
        [.comment ('/' :: '/' :: words), .other '\n'] ++ cutFrom false rest := by
      have hleads := @Leads.remark false (words ++ '\n' :: rest)
      rw [takeWhile_append_stop hwords (by rfl), dropWhile_append_stop hwords (by rfl)] at hleads
      show cutFrom false ('/' :: '/' :: (words ++ ['\n'] ++ rest)) = _
      rw [List.append_assoc, List.singleton_append, hleads.cutFrom_eq,
        (leads_seam (by decide) _ rest).cutFrom_eq]
      rfl
    refine isGap_of_cutFrom hcut ?_
    exact List.forall_mem_cons.2 ⟨isCopy_comment _, List.forall_mem_singleton.2 (isCopy_other _)⟩

/-- What stands before a comment is not looked at behind it. -/
theorem IsComment.expectsExpression_append {s : List Char} (h : IsComment s)
    (written : List Char) : expectsExpression (s.reverse ++ written) = expectsExpression s.reverse := by
  obtain ⟨rest, rfl⟩ : ∃ rest, s = '/' :: rest := by cases h <;> exact ⟨_, rfl⟩
  rw [List.reverse_cons, List.append_assoc]
  exact expectsExpression_append_of_sign (by decide) (by decide) rest.reverse

/-- No value is awaited behind a block comment. -/
theorem IsComment.not_awaitsValue {words : List Char} (h : IsComment ('/' :: '*' :: words)) :
    ¬AwaitsValue ('/' :: '*' :: words) := by
  cases h with
  | @block words _ =>
    rw [← expectsExpression_iff]
    have hlast : ('/' :: '*' :: (words ++ ['*', '/'])).reverse =
        '/' :: '*' :: (words.reverse ++ ['*', '/']) := by simp
    rw [hlast, expectsExpression_of_last (by decide) (by decide) (by decide)]
    exact Bool.false_ne_true

/-! ### Comments at the end of a text -/

/-- The text of a piece without its comments: a comment counts as a blank. -/
def Piece.code : Piece → List Char
  | comment _ => [' ']
  | piece => piece.source

/-- A text with a blank in the place of each comment. -/
def withoutComments (s : List Char) : List Char := (cutFrom false s).flatMap Piece.code

/-- `EndsInComment s text` says that the text `s` ends, blanks aside, in the comment `text`. -/
def EndsInComment (s text : List Char) : Prop :=
  ∃ before after, cutFrom false s = before ++ .comment text :: after ∧
    (after.flatMap Piece.source).all Text.isBlank = true

/-- A comment reaches to the end of its line, or it is a block comment. -/
theorem Leads.of_comment {afterDot : Bool} {s text rest : List Char}
    (h : Leads afterDot s (.comment text) rest) :
    (∃ words, text = '/' :: '/' :: words ∧ rest.head?.any (· != '\n') = false) ∨
      ∃ words, text = '/' :: '*' :: (splitBlock words).1 := by
  cases h with
  | remark words => exact .inl ⟨_, rfl, head_dropWhile _ words⟩
  | block words => exact .inr ⟨words, rfl⟩

/-- A comment at the end of a text decides alone. -/
theorem EndsInComment.awaitsValue_iff {s text : List Char} (h : EndsInComment s text) :
    AwaitsValue s ↔ AwaitsValue text := by
  obtain ⟨before, after, hcut, hblanks⟩ := h
  obtain ⟨rest, rfl⟩ : ∃ rest, text = '/' :: rest := by
    rcases (leads_cutFrom hcut).of_comment with ⟨words, rfl, -⟩ | ⟨words, rfl⟩ <;> exact ⟨_, rfl⟩
  have hs := source_cutFrom false s
  rw [hcut, List.flatMap_append, List.flatMap_cons] at hs
  rw [← expectsExpression_iff, ← expectsExpression_iff, ← hs, List.reverse_append,
    List.reverse_append, List.append_assoc,
    expectsExpression_append_blanks (by rwa [List.all_reverse])]
  show expectsExpression (('/' :: rest).reverse ++ _) = true ↔ _
  rw [List.reverse_cons, List.append_assoc, List.singleton_append,
    expectsExpression_append_of_sign (by decide) (by decide)]

theorem exists_last_comment (pieces : List Piece) :
    (∀ piece ∈ pieces, ∀ text, piece ≠ .comment text) ∨
      ∃ before text after, pieces = before ++ .comment text :: after ∧
        ∀ piece ∈ after, ∀ text, piece ≠ .comment text := by
  induction pieces with
  | nil => exact .inl (by simp)
  | cons piece rest ih =>
    rcases ih with hnone | ⟨before, text, after, rfl, hafter⟩
    · by_cases hcomment : ∃ text, piece = .comment text
      · obtain ⟨text, rfl⟩ := hcomment
        exact .inr ⟨[], text, rest, rfl, hnone⟩
      · exact .inl (List.forall_mem_cons.2 ⟨fun text h => hcomment ⟨text, h⟩, hnone⟩)
    · exact .inr ⟨piece :: before, text, after, rfl, hafter⟩

theorem flatMap_code {pieces : List Piece} (h : ∀ piece ∈ pieces, ∀ text, piece ≠ .comment text) :
    pieces.flatMap Piece.code = pieces.flatMap Piece.source := by
  induction pieces with
  | nil => rfl
  | cons piece rest ih =>
    obtain ⟨hpiece, hrest⟩ := List.forall_mem_cons.1 h
    rw [List.flatMap_cons, List.flatMap_cons, ih hrest]
    cases piece with
    | comment text => exact absurd rfl (hpiece text)
    | _ => rfl

/-- Comments elsewhere do not matter. -/
theorem awaitsValue_withoutComments {s : List Char} (hrun : (run .code s).isOutside = true)
    (h : ∀ text, ¬EndsInComment s text) : AwaitsValue s ↔ AwaitsValue (withoutComments s) := by
  have hs := source_cutFrom false s
  rw [← expectsExpression_iff, ← expectsExpression_iff, withoutComments]
  rcases exists_last_comment (cutFrom false s) with hnone | ⟨before, text, after, hcut, hafter⟩
  · rw [flatMap_code hnone, hs]
  have hsome : ((after.flatMap Piece.source).reverse).all Text.isBlank = false := by
    rw [List.all_reverse, Bool.eq_false_iff]
    exact fun hblanks => h text ⟨before, after, hcut, hblanks⟩
  have hclosed : (Piece.comment text).closed = true :=
    (closed_iff false s).2 hrun _ (by rw [hcut]; simp)
  have hcomment := (leads_cutFrom hcut).of_comment
  rw [hcut, List.flatMap_append, List.flatMap_cons] at hs
  rw [hcut, List.flatMap_append, List.flatMap_cons, flatMap_code hafter, ← hs]
  simp only [List.reverse_append, List.append_assoc, Piece.code, Piece.source,
    List.singleton_append, List.reverse_cons]
  generalize after.flatMap Piece.source = rest at hcomment hsome
  rw [expectsExpression_append_of_stop (by decide) hsome]
  rcases hcomment with ⟨words, rfl, hline⟩ | ⟨words, rfl⟩
  · -- a line comment ends before a line break, and so does a word
    cases rest with
    | nil => cases hsome
    | cons c rest =>
      obtain rfl : c = '\n' := by simpa using hline
      have hrest : rest.reverse.all Text.isBlank = false := by
        simpa [show Text.isBlank '\n' = true from by decide] using hsome
      rw [List.reverse_cons, List.append_assoc, List.singleton_append,
        expectsExpression_append_of_stop (by decide) hrest,
        expectsExpression_append_of_stop (by decide) hrest]
  · have hlast : ('/' :: '*' :: (splitBlock words).1).getLast? = some '/' := by
      simp [List.getLast?_cons, getLast?_of_closesBlock hclosed]
    obtain ⟨front, hfront⟩ := exists_reverse_of_getLast? hlast
      (before.flatMap Piece.source).reverse
    rw [hfront, expectsExpression_append_of_stop (by decide) hsome]

/-! ### Braces -/

/-- `EndsInCode s` says that the scan of the text `s` ends outside literals and comments. -/
def EndsInCode (s : List Char) : Prop := run .code s = .code ∨ run .code s = .slash

instance (s : List Char) : Decidable (EndsInCode s) := inferInstanceAs (Decidable (_ ∨ _))

theorem EndsInCode.isOutside {s : List Char} (h : EndsInCode s) :
    (run .code s).isOutside = true ∧ run .code s ≠ .remark := by
  rcases h with h | h <;> rw [h] <;> exact ⟨rfl, nofun⟩

/-- The script form of a brace, which opens an object literal or does not. -/
def opening (object : Bool) : String := if object then "#\x7b" else "\x7b"

/-- Behind a brace, nothing that precedes it is looked at. -/
theorem images_behind_brace (pieces : List Piece) (reached written : List Char) :
    images (reached ++ '\x7b' :: written) pieces = images (reached ++ ['\x7b']) pieces := by
  induction pieces generalizing reached with
  | nil => rfl
  | cons piece rest ih =>
    have himage : piece.image (reached ++ '\x7b' :: written) = piece.image (reached ++ ['\x7b']) := by
      cases piece with
      | brace =>
        rw [Piece.image, Piece.image, expectsExpression_append_of_sign (by decide) (by decide)]
      | strict negated => cases negated <;> rfl
      | json writing => cases writing <;> rfl
      | _ => rfl
    rw [images, images, himage, ← List.append_assoc, ← List.append_assoc, ih]

/-- The script form of a text with a brace behind comments and blanks. -/
theorem toScript_brace {text gap : String} (htext : EndsInCode text.toList) (hgap : IsGap gap.toList)
    (tail : String) :
    toScript (text ++ " " ++ gap ++ "\x7b" ++ tail) = toScript text ++ " " ++ gap ++
      opening (expectsExpression (gap.toList.reverse ++ ' ' :: (toScript text).toList.reverse)) ++
      String.ofList (images ['\x7b'] (cutFrom false tail.toList)) := by
  obtain ⟨houtside, hremark⟩ := htext.isOutside
  have hbrace (written : List Char) : images written (cutFrom false ('\x7b' :: tail.toList)) =
      (opening (expectsExpression written)).toList ++
        images ['\x7b'] (cutFrom false tail.toList) := by
    rw [(Leads.brace tail.toList).cutFrom_eq, images, Piece.image, opening]
    split
    · exact congrArg _ (images_behind_brace _ [] _)
    · exact congrArg _ (images_behind_brace _ [] _)
  have hlist : (text ++ " " ++ gap ++ "\x7b" ++ tail).toList =
      text.toList ++ ' ' :: (gap.toList ++ '\x7b' :: tail.toList) := by
    simp [String.toList_append]
  rw [← String.toList_inj, toList_toScript, toList_toScript, cut, hlist,
    cutFrom_append_seam (by decide) houtside (.inr hremark), hgap.whole, images_append, images,
    images_append, images_of_isCopy hgap.copied, source_cutFrom, hbrace]
  simp [String.toList_append, toList_toScript, Piece.image, cut]

/-- **A brace behind a comment.** The comment in front of a brace decides alone whether the brace opens
an object literal; a block comment decides that it does not. Without the comment the text before it
decides, and in it the comment that it ends in, if it ends in one; other comments do not matter. -/
theorem brace_after_comment (tail : String) :
    ∃ after : String, ∀ text comment blanks : String,
      EndsInCode text.toList → IsComment comment.toList →
      blanks.toList.all Text.isBlank = true →
      toScript (text ++ " " ++ comment ++ " " ++ blanks ++ "\x7b" ++ tail) =
          toScript text ++ " " ++ comment ++ " " ++ blanks ++
            opening (AwaitsValue comment.toList) ++ after ∧
        (∀ words, comment.toList = '/' :: '*' :: words → ¬AwaitsValue comment.toList) ∧
        toScript (text ++ " " ++ blanks ++ "\x7b" ++ tail) =
          toScript text ++ " " ++ blanks ++ opening (AwaitsValue text.toList) ++ after ∧
        (∀ last, EndsInComment text.toList last →
          (AwaitsValue text.toList ↔ AwaitsValue last)) ∧
        ((∀ last, ¬EndsInComment text.toList last) →
          (AwaitsValue text.toList ↔ AwaitsValue (withoutComments text.toList))) := by
  refine ⟨String.ofList (images ['\x7b'] (cutFrom false tail.toList)),
    fun text comment blanks htext hcomment hblanks => ⟨?_, ?_, ?_, ?_, ?_⟩⟩
  · have hspaces : (" " ++ blanks).toList.all Text.isBlank = true := by
      rw [String.toList_append, List.all_append, hblanks]
      rfl
    have hgap : IsGap (comment ++ (" " ++ blanks)).toList := by
      rw [String.toList_append]
      exact hcomment.isGap.append (isGap_blanks hspaces)
    have hassoc : text ++ " " ++ comment ++ " " ++ blanks =
        text ++ " " ++ (comment ++ (" " ++ blanks)) := by
      simp only [String.append_assoc]
    -- of what is written, the decision sees the comment alone
    have hdecision : expectsExpression ((comment ++ (" " ++ blanks)).toList.reverse ++
        ' ' :: (toScript text).toList.reverse) = decide (AwaitsValue comment.toList) := by
      rw [String.toList_append, List.reverse_append, List.append_assoc,
        expectsExpression_append_blanks (by rwa [List.all_reverse]),
        hcomment.expectsExpression_append, decide_awaitsValue]
    rw [hassoc, toScript_brace htext hgap tail, hdecision]
    simp only [String.append_assoc]
  · rintro words hwords
    rw [hwords] at hcomment ⊢
    exact hcomment.not_awaitsValue
  · -- without the comment it sees the text, of which other comments are no part
    have hdecision : expectsExpression (blanks.toList.reverse ++
        ' ' :: (toScript text).toList.reverse) = decide (AwaitsValue text.toList) := by
      rw [expectsExpression_append_blanks (by rwa [List.all_reverse]),
        expectsExpression_blank_cons (by decide), toList_toScript, cut,
        expectsExpression_images htext.isOutside.1, decide_awaitsValue]
    rw [toScript_brace htext (isGap_blanks hblanks) tail, hdecision]
  · exact fun last hlast => hlast.awaitsValue_iff
  · exact awaitsValue_withoutComments htext.isOutside.1

/-- A comment between an equals sign and a brace. -/
theorem brace_after_comment_of_assignment :
    EndsInCode "x =".toList ∧ IsComment "/* c */".toList ∧ "".toList.all Text.isBlank = true ∧
      AwaitsValue "x =".toList ∧
      ∃ after, toScript "x = /* c */ \x7ba: 1\x7d" = "x = /* c */ \x7b" ++ after ∧
        toScript "x = \x7ba: 1\x7d" = "x = #\x7b" ++ after := by
  have htext : EndsInCode "x =".toList := by decide
  have hcomment : IsComment "/* c */".toList :=
    @IsComment.block [' ', 'c', ' '] (by decide)
  have hblanks : "".toList.all Text.isBlank = true := rfl
  have hawaits : AwaitsValue "x =".toList := .sign ['x', ' '] (by decide) rfl
  obtain ⟨after, hafter⟩ := brace_after_comment "a: 1\x7d"
  obtain ⟨hwith, hblock, hwithout, -, -⟩ := hafter "x =" "/* c */" "" htext hcomment hblanks
  have hscript : toScript "x =" = "x =" := by decide +kernel
  refine ⟨htext, hcomment, hblanks, hawaits, after, ?_, ?_⟩
  · rw [decide_eq_false (hblock _ rfl), hscript] at hwith
    exact hwith
  · rw [decide_eq_true hawaits, hscript] at hwithout
    exact hwithout

end Rulebook.Surface
