import Rulebook.Proofs.Surface.Scanning
import Rulebook.Proofs.Text.Runs

/-!
# Seams

Where two texts meet at a sign that stands alone, such as a semicolon or a line break, and the first
one ends outside literals and comments, the pieces of the whole are those of the parts:
`cutFrom_append_seam`. Texts that end in such a sign can be put in front of any text: `Whole`.
-/

namespace Rulebook.Surface

open Mode

/-- The characters that stand alone: none of them continues what precedes it or begins something
longer. -/
def seams : List Char := [' ', '\n', '(', ')', ';', '\x7d']

theorem of_mem_seams {c : Char} (h : c ∈ seams) :
    isQuote c = false ∧ isNumberPart c = false ∧ isWordStart c = false ∧ c.isDigit = false ∧
      c ∉ ['/', '*', '=', '!', '#', '\x7b', '.'] := by
  have hall : seams.all (fun c => decide (isQuote c = false ∧ isNumberPart c = false ∧
      isWordStart c = false ∧ c.isDigit = false ∧
      c ∉ ['/', '*', '=', '!', '#', '\x7b', '.'])) = true := by decide
  exact of_decide_eq_true (List.all_eq_true.1 hall c h)

theorem leads_seam {c : Char} (h : c ∈ seams) (afterDot : Bool) (rest : List Char) :
    Leads afterDot (c :: rest) (.other c) rest := by
  obtain ⟨hquote, -, hstart, hdigit, hsigns⟩ := of_mem_seams h
  simp only [List.mem_cons, List.not_mem_nil, or_false, not_or] at hsigns
  obtain ⟨hslash, -, hequals, hbang, hhash, hbrace, -⟩ := hsigns
  exact .other ⟨hquote, hstart, hdigit, hbrace, fun h => absurd h hslash, fun h => absurd h hhash,
    fun h => absurd h (not_or.2 ⟨hequals, hbang⟩)⟩

variable {e : Char} {tail : List Char}

theorem takeWhile_append_seam {p : Char → Bool} (h : p e = false) (s : List Char) :
    (s ++ e :: tail).takeWhile p = s.takeWhile p :=
  @takeWhile_append_of_head p (e :: tail) h s

theorem dropWhile_append_seam {p : Char → Bool} (h : p e = false) (s : List Char) :
    (s ++ e :: tail).dropWhile p = s.dropWhile p ++ e :: tail :=
  @dropWhile_append_of_head p (e :: tail) h s

theorem splitLiteral_cons {c : Char} (quote : Char) (h : c ≠ '\\') (rest : List Char) :
    splitLiteral quote (c :: rest) =
      if c = quote then ([c], rest)
      else (c :: (splitLiteral quote rest).1, (splitLiteral quote rest).2) := by
  rw [splitLiteral]
  all_goals
    intros
    exact absurd ‹_› h

theorem splitLiteral_append_of_closes {quote : Char} {s : List Char}
    (h : closesLiteral quote (splitLiteral quote s).1 = true) (more : List Char) :
    splitLiteral quote (s ++ more) =
      ((splitLiteral quote s).1, (splitLiteral quote s).2 ++ more) := by
  fun_induction splitLiteral quote s with
  | case1 => cases h
  | case2 => cases h
  | case3 c rest inside after heq ih =>
    rw [heq] at ih
    simp only [List.cons_append, splitLiteral]
    rw [ih h]
  | case4 rest hlast hpair =>
    rw [List.cons_append, splitLiteral_cons _ (ne_backslash hlast hpair), if_pos rfl]
  | case5 c rest hlast hpair hquote inside after heq ih =>
    have hne := ne_backslash hlast hpair
    rw [closesLiteral_cons _ hne, beq_eq_false_iff_ne.2 hquote, Bool.false_or] at h
    rw [heq] at ih
    rw [List.cons_append, splitLiteral_cons _ hne, if_neg hquote, ih h]

theorem splitBlock_cons {c : Char} {rest : List Char}
    (h : ∀ tail, c = '*' → rest = '/' :: tail → False) :
    splitBlock (c :: rest) = (c :: (splitBlock rest).1, (splitBlock rest).2) := by
  rw [splitBlock]
  exact h

theorem splitBlock_append_of_closes {s : List Char} (h : closesBlock (splitBlock s).1 = true)
    (more : List Char) :
    splitBlock (s ++ more) = ((splitBlock s).1, (splitBlock s).2 ++ more) := by
  fun_induction splitBlock s with
  | case1 => cases h
  | case2 rest => rfl
  | case3 c rest hmark inside after heq ih =>
    rw [heq] at ih
    have happend := splitBlock_append rest
    rw [heq] at happend
    have hinside : closesBlock inside = true := by
      rwa [closesBlock_cons] at h
      rintro tail hc rfl
      exact hmark (tail ++ after) hc happend.symm
    have hmore : ∀ tail, c = '*' → rest ++ more = '/' :: tail → False := by
      intro tail hc heq
      cases rest with
      | nil =>
        simp only [List.append_eq_nil_iff] at happend
        rw [happend.1] at hinside
        cases hinside
      | cons d rest =>
        cases heq
        exact hmark rest hc rfl
    rw [List.cons_append, splitBlock_cons hmore, ih hinside]

theorem afterMember_append_seam {lead : List Char} (hpart : isWordPart e = false)
    (hlead : e ∉ lead) (s : List Char) :
    afterMember lead (s ++ e :: tail) = (afterMember lead s).map (· ++ e :: tail) := by
  fun_induction afterMember lead s with
  | case1 => simp [afterMember, hpart]
  | case2 c rest h => simp [afterMember, h]
  | case3 c rest h => simp [afterMember, h]
  | case4 a lead =>
    simp only [List.mem_cons, not_or] at hlead
    simp [afterMember, Ne.symm hlead.1]
  | case5 lead c rest ih =>
    simp only [List.mem_cons, not_or] at hlead
    simp [afterMember, ih hlead.2]
  | case6 a lead c rest h => simp [afterMember, h]

/-- A sign of which the seam is no part does not reach into it. -/
theorem exists_of_append_seam (sign : List Char) {s rest : List Char}
    (h : s ++ e :: tail = sign ++ rest) (hsign : e ∉ sign) : ∃ more, s = sign ++ more := by
  induction sign generalizing s with
  | nil => exact ⟨s, rfl⟩
  | cons c sign ih =>
    simp only [List.mem_cons, not_or] at hsign
    cases s with
    | nil => exact absurd (List.cons.inj h).1 hsign.1
    | cons d s =>
      rw [List.cons_append, List.cons_append] at h
      obtain ⟨rfl, htail⟩ := List.cons.inj h
      obtain ⟨more, rfl⟩ := ih htail hsign.2
      exact ⟨more, rfl⟩

/-- A line comment ends at the first line break, be it inside the text or the seam. -/
theorem line_append_seam {s : List Char} (h : e = '\n' ∨ '\n' ∈ s) :
    (s ++ e :: tail).takeWhile (· != '\n') = s.takeWhile (· != '\n') ∧
      (s ++ e :: tail).dropWhile (· != '\n') = s.dropWhile (· != '\n') ++ e :: tail := by
  rcases h with rfl | h
  · exact ⟨takeWhile_append_seam (by decide) s, dropWhile_append_seam (by decide) s⟩
  · obtain ⟨first, second, rfl⟩ := List.append_of_mem h
    rw [List.append_assoc, List.cons_append]
    simp only [takeWhile_append_seam (e := '\n') (p := (· != '\n')) rfl,
      dropWhile_append_seam (e := '\n') (p := (· != '\n')) rfl]
    simp

theorem head?_append_seam {s : List Char} {d : Char} (h : s.head? ≠ some d) (hne : e ≠ d) :
    (s ++ e :: tail).head? ≠ some d := by
  cases s with
  | nil => simpa using hne
  | cons c s => exact h

theorem any_head?_append_seam {p : Char → Bool} {s : List Char} (h : s.head?.any p = false)
    (hseam : p e = false) : (s ++ e :: tail).head?.any p = false := by
  cases s with
  | nil => exact hseam
  | cons c s => exact h

/-- The first piece of a text is the same when a seam and more text follow, if it is closed and no
line comment runs into the seam. -/
theorem Leads.append_seam (he : e ∈ seams) {afterDot : Bool} {s rest : List Char} {piece : Piece}
    (h : Leads afterDot s piece rest) (hclosed : piece.closed = true)
    (hline : e = '\n' ∨ run .code s ≠ .remark) :
    Leads afterDot (s ++ e :: tail) piece (rest ++ e :: tail) := by
  obtain ⟨hquote, hpart, hstart, hdigit, hsigns⟩ := of_mem_seams he
  have hword : isWordPart e = false := by
    simp only [isNumberPart, Bool.or_eq_false_iff] at hpart
    exact hpart.1
  have hmember (writing : Bool) : e ∉ member writing := by
    intro hmem
    have hall : (member writing).all isNumberPart = true := by cases writing <;> decide
    rw [List.all_eq_true.1 hall e hmem] at hpart
    cases hpart
  cases h with
  | literal inside hdouble =>
    have happend := @Leads.literal afterDot _ (inside ++ e :: tail) hdouble
    rwa [splitLiteral_append_of_closes hclosed] at happend
  | single inside =>
    have happend := @Leads.single afterDot (inside ++ e :: tail)
    rwa [splitLiteral_append_of_closes hclosed] at happend
  | remark words =>
    -- a remark ends with its line: at the seam, or before it
    have hmem : e = '\n' ∨ '\n' ∈ words := by
      refine hline.imp_right fun hrun => ?_
      by_contra hnot
      exact hrun (run_remark hnot)
    have happend := @Leads.remark afterDot (words ++ e :: tail)
    rwa [(line_append_seam hmem).1, (line_append_seam hmem).2] at happend
  | block words =>
    have happend := @Leads.block afterDot (words ++ e :: tail)
    rwa [splitBlock_append_of_closes hclosed] at happend
  | word hname htail hrest hjson =>
    rw [List.cons_append, List.append_assoc]
    refine .word hname htail (any_head?_append_seam hrest hword) fun heq hdot writing => ?_
    rw [afterMember_append_seam hword (hmember writing), hjson heq hdot writing]
    rfl
  | json writing hdot hrest =>
    rw [List.append_assoc, List.append_assoc]
    exact .json writing hdot (any_head?_append_seam hrest hword)
  | number hnumber htail hrest =>
    rw [List.cons_append, List.append_assoc]
    exact .number hnumber htail (any_head?_append_seam hrest hpart)
  | strict negated rest => exact .strict negated (rest ++ e :: tail)
  | objectOpen rest => exact .objectOpen (rest ++ e :: tail)
  | brace rest => exact .brace (rest ++ e :: tail)
  | other halone =>
    simp only [List.mem_cons, List.not_mem_nil, or_false, not_or] at hsigns
    obtain ⟨hslash, hstar, hequals, -, -, hbrace, -⟩ := hsigns
    exact .other { halone with
      slash hc := ⟨head?_append_seam (halone.slash hc).1 hslash,
        head?_append_seam (halone.slash hc).2 hstar⟩
      hash hc := head?_append_seam (halone.hash hc) hbrace
      equals hc more heq := by
        obtain ⟨after, rfl⟩ := exists_of_append_seam ['=', '='] heq (by simp [hequals])
        exact halone.equals hc after rfl }

theorem cutFrom_cons (afterDot : Bool) (c : Char) (rest : List Char) :
    cutFrom afterDot (c :: rest) = (next afterDot c rest).1 ::
      cutFrom ((next afterDot c rest).1 == .other '.') (next afterDot c rest).2 := by
  rw [cutFrom]

/-- The pieces of two texts that meet at a seam are the pieces of the one and of the other. -/
theorem cutFrom_append_seam (he : e ∈ seams) {s : List Char}
    (hrun : (run .code s).isOutside = true) (hline : e = '\n' ∨ run .code s ≠ .remark)
    (afterDot : Bool) :
    cutFrom afterDot (s ++ e :: tail) = cutFrom afterDot s ++ .other e :: cutFrom false tail := by
  fun_induction cutFrom afterDot s with
  | case1 afterDot =>
    have hdot : (Piece.other e == .other '.') = false := by
      rw [beq_eq_false_iff_ne]
      rintro ⟨⟩
      exact absurd he (by decide)
    rw [List.nil_append, (leads_seam he afterDot tail).cutFrom_eq, hdot]
    rfl
  | case2 afterDot c rest first ih =>
    have hstarts := starts_next afterDot c rest
    obtain ⟨hclosed, hrest⟩ := Bool.and_eq_true_iff.1 (hstarts.isOutside_eq ▸ hrun)
    have hnext : e = '\n' ∨ run .code first.2 ≠ .remark := by
      refine hline.imp_right fun hne => ?_
      by_cases hnil : first.2 = []
      · rw [hnil]
        simp
      · rwa [← hstarts.run_eq hclosed hnil]
    rw [((leads_next afterDot c rest).append_seam he hclosed hline).cutFrom_eq, ih hrest hnext]
    rfl

theorem cutFrom_seam_cons (he : e ∈ seams) (s : List Char) :
    cutFrom false (e :: s) = .other e :: cutFrom false s := by
  have := @cutFrom_append_seam e s he [] rfl (.inr (by simp)) false
  rwa [List.nil_append, cutFrom, List.nil_append] at this

/-! ### Texts that stand in front of any text -/

/-- Whether a text can stand in front of any text without the pieces of either changing. -/
def Whole (s : List Char) : Prop :=
  ∀ tail, cutFrom false (s ++ tail) = cutFrom false s ++ cutFrom false tail

theorem whole_nil : Whole [] := by
  intro tail
  simp [cutFrom]

theorem Whole.append {s t : List Char} (hs : Whole s) (ht : Whole t) : Whole (s ++ t) := by
  intro tail
  rw [List.append_assoc, hs, ht, hs, List.append_assoc]

/-- A text that ends in a seam, with its pieces. -/
theorem cutFrom_concat_seam (he : e ∈ seams) {s : List Char}
    (hrun : (run .code s).isOutside = true) (hline : e = '\n' ∨ run .code s ≠ .remark) :
    cutFrom false (s ++ [e]) = cutFrom false s ++ [.other e] := by
  rw [cutFrom_append_seam he hrun hline, cutFrom]

theorem whole_concat_seam (he : e ∈ seams) {s : List Char}
    (hrun : (run .code s).isOutside = true) (hline : e = '\n' ∨ run .code s ≠ .remark) :
    Whole (s ++ [e]) := by
  intro tail
  rw [List.append_assoc, List.singleton_append, cutFrom_append_seam he hrun hline,
    cutFrom_concat_seam he hrun hline, List.append_assoc, List.singleton_append]

/-- Text without quotes and slashes that ends in a seam. -/
theorem whole_of_sober {s : List Char} (h : s.all isSober = true)
    (hlast : ∀ c ∈ s.getLast?, c ∈ seams) : Whole s := by
  rcases List.eq_nil_or_concat s with rfl | ⟨front, last, rfl⟩
  · exact whole_nil
  · rw [List.concat_eq_append] at *
    rw [List.all_append, Bool.and_eq_true] at h
    have hrun := run_code_of_sober h.1
    refine whole_concat_seam (hlast last (by simp)) ?_ (.inr ?_)
    · rw [hrun]
      rfl
    · rw [hrun]
      simp

/-- A piece that is neither a literal nor a comment. -/
def Piece.isCode : Piece → Bool
  | .literal _ => false
  | .single _ => false
  | .comment _ => false
  | _ => true

theorem Starts.isCode {s rest : List Char} {piece : Piece} (h : Starts s piece rest)
    (hsource : piece.source.all isSober = true) : piece.isCode = true := by
  cases h with
  | literal s hquote => rcases hquote with rfl | rfl <;> cases hsource
  | single s => cases hsource
  | remark s => cases hsource
  | block s => cases hsource
  | written piece rest hwritten => cases piece <;> first | rfl | exact hwritten.elim
  | other => rfl

/-- Text without quotes and slashes has no literals and no comments. -/
theorem isCode_of_sober {afterDot : Bool} {s : List Char} (h : s.all isSober = true) :
    ∀ piece ∈ cutFrom afterDot s, piece.isCode = true := by
  fun_induction cutFrom afterDot s with
  | case1 => simp
  | case2 afterDot c rest first ih =>
    have hstarts := starts_next afterDot c rest
    have hsource := hstarts.source_append
    rw [← hsource, List.all_append, Bool.and_eq_true] at h
    exact List.forall_mem_cons.2 ⟨hstarts.isCode h.1, ih h.2⟩

/-- Seams in a row, such as an indentation. -/
theorem whole_of_seams {s : List Char} (h : ∀ c ∈ s, c ∈ seams) :
    Whole s ∧ cutFrom false s = s.map .other := by
  induction s with
  | nil => exact ⟨whole_nil, by simp [cutFrom]⟩
  | cons c s ih =>
    obtain ⟨hs, hcut⟩ := ih fun d hd => h d (by simp [hd])
    have hc : c ∈ seams := h c (by simp)
    have hne : run .code [] ≠ .remark := by simp
    have hwhole := whole_concat_seam hc (s := []) rfl (.inr hne)
    have hone := cutFrom_concat_seam hc (s := []) rfl (.inr hne)
    refine ⟨hwhole.append hs, ?_⟩
    show cutFrom false (([] ++ [c]) ++ s) = _
    rw [hwhole, hone, hcut, cutFrom]
    rfl

end Rulebook.Surface
