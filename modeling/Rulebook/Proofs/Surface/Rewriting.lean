import Rulebook.Proofs.Surface.Images

/-!
# What the script form of a rule text changes

The script form of a rule text is written piece by piece: `Piece.Becomes` lists what a piece can turn
into, and `marks` are the literals and comments of a text, looked for in one character of code after
the other. `toScript_rewrites` says that the script form is the script text of the pieces and has the
same literals and comments.
-/

namespace Rulebook.Surface

open Mode

/-! ### What becomes of a piece -/

/-- Whether a piece stays as it is after the script text `written`, which is given in reverse. -/
def Piece.isCopied (written : List Char) : Piece → Bool
  | single _ => false
  | strict _ => false
  | json _ => false
  | brace => !expectsExpression written
  | word _ text => written.head? == some '.' ||
      !(["null".toList, "undefined".toList, "var".toList].contains text)
  | _ => true

/-- What becomes of a piece after the script text `written`, which is given in reverse. A word after a
dot names a member. -/
inductive Piece.Becomes (written : List Char) : Piece → List Char → Prop where
  | copied {piece : Piece} (h : piece.isCopied written = true) : Becomes written piece piece.source
  | requoted (text : List Char) : Becomes written (.single text) (requote text)
  | equal : Becomes written (.strict false) ['=', '=']
  | unequal : Becomes written (.strict true) ['!', '=']
  | object (h : expectsExpression written = true) : Becomes written .brace ['#', '\x7b']
  | unit (afterDot : Bool) {text : List Char} (hdot : written.head? ≠ some '.')
    (h : text = "null".toList ∨ text = "undefined".toList) :
    Becomes written (.word afterDot text) ['(', ')']
  | declaration (afterDot : Bool) (hdot : written.head? ≠ some '.') :
    Becomes written (.word afterDot "var".toList) "let".toList
  | parse (hdot : written.head? ≠ some '.') :
    Becomes written (.json false) "json_parse".toList
  | write (hdot : written.head? ≠ some '.') :
    Becomes written (.json true) "json_stringify".toList

/-- Whether the text `s`, which follows a dot or does not, follows script text that ends in a dot or
does not. Only where a word starts this makes a difference. -/
def AgreesOnDot (afterDot : Bool) (written s : List Char) : Prop :=
  s.head?.any isWordStart = true → afterDot = (written.head? == some '.')

/-- What the image of a piece is. -/
theorem Leads.becomes {afterDot : Bool} {s rest written : List Char} {piece : Piece}
    (h : Leads afterDot s piece rest) (hdot : AgreesOnDot afterDot written s) :
    piece.Becomes written (piece.image written) := by
  cases h with
  | single => exact .requoted _
  | strict negated =>
    cases negated
    · exact .equal
    · exact .unequal
  | brace =>
    rw [Piece.image]
    split
    · rename_i hexpects
      exact .object hexpects
    · rename_i hexpects
      exact .copied (by simpa [Piece.isCopied] using hexpects)
  | json writing hfalse =>
    have hne : written.head? ≠ some '.' := by
      have := hdot rfl
      rw [hfalse] at this
      simpa using this.symm
    cases writing
    · exact .parse hne
    · exact .write hne
  | @word c tail rest hstart =>
    -- where a word starts, the flag of the scan and the script text before it agree
    have hdot : afterDot = (written.head? == some '.') := hdot hstart
    rw [Piece.image, wordImage]
    generalize c :: tail = text
    split
    · rename_i hafter
      exact .copied (by simp [Piece.isCopied, ← hdot, hafter])
    rename_i hafter
    have hne : written.head? ≠ some '.' := by simpa [hdot] using hafter
    split
    · rename_i hunit
      exact .unit afterDot hne hunit
    rename_i hunit
    split
    · rename_i hvar
      rw [hvar]
      exact .declaration afterDot hne
    · rename_i hvar
      have hother : ["null".toList, "undefined".toList, "var".toList].contains text = false := by
        simpa using And.intro (not_or.1 hunit).1 (And.intro (not_or.1 hunit).2 hvar)
      refine .copied ?_
      rw [Piece.isCopied, hother, Bool.not_false, Bool.or_true]
  | _ => exact .copied rfl

theorem getLast?_of_closesLiteral {quote : Char} {s : List Char}
    (h : closesLiteral quote (splitLiteral quote s).1 = true) :
    (splitLiteral quote s).1.getLast? = some quote := by
  fun_induction splitLiteral quote s with
  | case1 => cases h
  | case2 => cases h
  | case3 c rest inside after heq ih =>
    rw [heq] at ih
    simp [List.getLast?_cons, ih h]
  | case4 => rfl
  | case5 c rest hlast hpair hquote inside after heq ih =>
    rw [closesLiteral_cons _ (ne_backslash hlast hpair), beq_eq_false_iff_ne.2 hquote,
      Bool.false_or] at h
    rw [heq] at ih
    simp [List.getLast?_cons, ih h]

theorem getLast?_of_closesBlock {s : List Char} (h : closesBlock (splitBlock s).1 = true) :
    (splitBlock s).1.getLast? = some '/' := by
  fun_induction splitBlock s with
  | case1 => cases h
  | case2 => rfl
  | case3 c rest hmark inside after heq ih =>
    have happend := splitBlock_append rest
    rw [heq] at ih happend
    rw [closesBlock_cons] at h
    · simp [List.getLast?_cons, ih h]
    · rintro tail hc rfl
      exact hmark (tail ++ after) hc happend.symm

/-- Behind a character that continues a word, or a number, no word starts. -/
theorem not_isWordStart_of_head {p : Char → Bool} {rest : List Char}
    (hp : ∀ c, isWordStart c = true → p c = true) (h : rest.head?.any p = false) :
    rest.head?.any isWordStart = false := by
  cases rest with
  | nil => rfl
  | cons c rest =>
    by_contra hc
    have := hp c (by simpa using hc)
    simp [this] at h

/-- The script text of a piece in front of a word ends in a dot exactly if the piece is one. -/
theorem Leads.agreesOnDot {afterDot : Bool} {s rest : List Char} {piece : Piece}
    (h : Leads afterDot s piece rest) (written : List Char) :
    AgreesOnDot (piece == .other '.') ((piece.image written).reverse ++ written) rest := by
  intro hrest
  -- an open literal or comment reaches to the end of the text, where no word follows
  have hclosed : piece.closed = true := by
    rcases h.starts.cases with ⟨hclosed, -⟩ | ⟨-, rfl, -⟩
    · exact hclosed
    · cases hrest
  have hlast {c : Char} (hc : (piece.image written).getLast? = some c) :
      ((piece.image written).reverse ++ written).head? = some c := by
    rw [List.head?_append, List.head?_reverse, hc]
    rfl
  cases h with
  | @literal quote s hquote =>
    have hend := getLast?_of_closesLiteral hclosed
    have hhead := hlast (c := quote) (by simp [Piece.image, List.getLast?_cons, hend])
    rw [hhead]
    rcases hquote with rfl | rfl <;> rfl
  | single s =>
    have hhead := hlast (c := '"') (by simp [Piece.image, requote, List.getLast?_cons])
    rw [hhead]
    rfl
  | remark s =>
    obtain ⟨c, tail, hc⟩ : ∃ c tail, s.dropWhile (· != '\n') = c :: tail :=
      List.exists_cons_of_ne_nil fun hnil => by rw [hnil] at hrest; cases hrest
    have hline := head_dropWhile (· != '\n') s
    rw [hc] at hline hrest
    have hbreak : c = '\n' := by simpa using hline
    rw [hbreak] at hrest
    cases hrest
  | block s =>
    have hend := getLast?_of_closesBlock hclosed
    have hhead := hlast (c := '/') (by simp [Piece.image, List.getLast?_cons, hend])
    rw [hhead]
    rfl
  | word _ _ hpart =>
    rw [not_isWordStart_of_head (fun _ => isWordPart_of_isWordStart) hpart] at hrest
    cases hrest
  | json writing _ hpart =>
    rw [not_isWordStart_of_head (fun _ => isWordPart_of_isWordStart) hpart] at hrest
    cases hrest
  | number _ _ hpart =>
    rw [not_isWordStart_of_head (fun _ => isNumberPart_of_isWordStart) hpart] at hrest
    cases hrest
  | strict negated => cases negated <;> rfl
  | objectOpen => rfl
  | brace =>
    have hhead := hlast (c := '\x7b') (by rw [Piece.image]; split <;> rfl)
    rw [hhead]
    rfl
  | @other c =>
    rw [hlast (c := c) rfl, Bool.eq_iff_iff]
    simp

/-- Every piece of a text is what the rest of the text starts with. -/
theorem leads_cutFrom {afterDot : Bool} {s : List Char} {before after : List Piece} {piece : Piece}
    (h : cutFrom afterDot s = before ++ piece :: after) :
    Leads (before.getLast?.elim afterDot (· == .other '.'))
      (piece.source ++ after.flatMap Piece.source) piece (after.flatMap Piece.source) := by
  fun_induction cutFrom afterDot s generalizing before with
  | case1 => cases before <;> cases h
  | case2 afterDot c rest first =>
    rename_i ih
    cases before with
    | nil =>
      obtain ⟨rfl, rfl⟩ := List.cons.inj h
      have hleads := leads_next afterDot c rest
      rw [source_cutFrom, hleads.starts.source_append]
      exact hleads
    | cons other before =>
      obtain ⟨rfl, hrest⟩ := List.cons.inj h
      have hleads := ih hrest
      rw [List.getLast?_cons]
      cases hlast : before.getLast? <;> rwa [hlast] at hleads

/-- Every piece of a text becomes what its place allows. -/
theorem becomes_cutFrom {afterDot : Bool} {s written : List Char}
    (hdot : AgreesOnDot afterDot written s) {before after : List Piece} {piece : Piece}
    (h : cutFrom afterDot s = before ++ piece :: after) :
    let reached := (images written before).reverse ++ written
    piece.Becomes reached (piece.image reached) := by
  fun_induction cutFrom afterDot s generalizing written before with
  | case1 => cases before <;> cases h
  | case2 afterDot c rest first =>
    rename_i ih
    have hleads := leads_next afterDot c rest
    cases before with
    | nil =>
      obtain ⟨rfl, -⟩ := List.cons.inj h
      exact hleads.becomes hdot
    | cons other before =>
      obtain ⟨rfl, hrest⟩ := List.cons.inj h
      have := ih (hleads.agreesOnDot written) hrest
      rwa [← List.append_assoc, ← List.reverse_append] at this

/-! ### Literals and comments -/

theorem isCode_inScript (piece : Piece) : piece.inScript.isCode = piece.isCode := by
  cases piece <;> rfl

/-- The literals and comments of a text, looked for in one character of code after the other. -/
def marks : List Char → List Piece
  | [] => []
  | c :: rest =>
    let first := next false c rest
    if first.1.isCode then marks rest else first.1 :: marks first.2
termination_by s => s.length
decreasing_by
  · simp
  · have := next_length false c rest
    simp; omega

/-- Only quotes and slashes begin something else than code. -/
theorem Leads.isCode {afterDot : Bool} {c : Char} {s rest : List Char} {piece : Piece}
    (h : Leads afterDot (c :: s) piece rest) (hquote : isQuote c = false)
    (hslash : c = '/' → s.head? ≠ some '/' ∧ s.head? ≠ some '*') : piece.isCode = true := by
  generalize htext : c :: s = text at h
  cases h with
  | literal inside h =>
    cases htext
    rcases h with rfl | rfl <;> cases hquote
  | single inside =>
    cases htext
    cases hquote
  | remark words =>
    cases htext
    exact absurd rfl (hslash rfl).1
  | block words =>
    cases htext
    exact absurd rfl (hslash rfl).2
  | _ => rfl

theorem marks_cons {c : Char} {s : List Char} (hquote : isQuote c = false)
    (hslash : c = '/' → s.head? ≠ some '/' ∧ s.head? ≠ some '*') : marks (c :: s) = marks s := by
  rw [marks]
  exact if_pos ((leads_next false c s).isCode hquote hslash)

theorem marks_append_of_plain {s : List Char} (h : s.all isPlain = true) (rest : List Char) :
    marks (s ++ rest) = marks rest := by
  induction s with
  | nil => rfl
  | cons c s ih =>
    rw [List.all_cons, Bool.and_eq_true] at h
    obtain ⟨hquote, hslash, -⟩ := isPlain_iff.1 h.1
    rw [List.cons_append, marks_cons hquote fun hc => absurd hc hslash]
    exact ih h.2

theorem Leads.marks_of_not_isCode {afterDot : Bool} {s rest : List Char} {piece : Piece}
    (h : Leads afterDot s piece rest) (hcode : piece.isCode = false) :
    marks s = piece :: marks rest := by
  have hundotted : Leads false s piece rest := by
    cases h with
    | literal s hquote => exact .literal s hquote
    | single s => exact .single s
    | remark s => exact .remark s
    | block s => exact .block s
    | _ => cases hcode
  obtain ⟨c, tail, rfl⟩ : ∃ c tail, s = c :: tail := by cases h <;> exact ⟨_, _, rfl⟩
  rw [marks, hundotted.next_eq]
  exact if_neg (by simp [hcode])

/-- The image of a piece of code has no literals and no comments, nor does it begin one. -/
theorem Leads.marks_of_isCode {afterDot : Bool} {s rest more : List Char} {piece : Piece}
    (h : Leads afterDot s piece rest) (hcode : piece.isCode = true) (hfits : Fits rest more)
    (written : List Char) :
    marks s = marks rest ∧ marks (piece.image written ++ more) = marks more := by
  cases h.starts with
  | written piece rest hwritten =>
    exact ⟨marks_append_of_plain (isPlainText_source hwritten).2 rest,
      marks_append_of_plain (isPlainText_image hwritten written).2 more⟩
  | other rest hquote hslash =>
    refine ⟨marks_cons hquote hslash, marks_cons hquote fun hc => ?_⟩
    exact ⟨hfits.head_ne (hslash hc).1 (by decide), hfits.head_ne (hslash hc).2 (by decide)⟩
  | _ => cases hcode

/-- The literals and comments among the pieces of a text are found without the pieces between them. -/
theorem filter_cutFrom (afterDot : Bool) (s : List Char) :
    (cutFrom afterDot s).filter (!·.isCode) = marks s := by
  fun_induction cutFrom afterDot s with
  | case1 => rw [List.filter_nil, marks]
  | case2 afterDot c rest first ih =>
    have hleads := leads_next afterDot c rest
    cases hcode : first.1.isCode with
    | true =>
      rw [List.filter_cons_of_neg (by simp [hcode]), ih]
      exact (hleads.marks_of_isCode hcode (fits_images false [] _) []).1.symm
    | false =>
      rw [List.filter_cons_of_pos (by simp [hcode]), ih]
      exact (hleads.marks_of_not_isCode hcode).symm

/-- The script text of a text has the literals and comments of the text. -/
theorem marks_images (afterDot : Bool) (s written : List Char) :
    marks (images written (cutFrom afterDot s)) = (marks s).map Piece.inScript := by
  fun_induction cutFrom afterDot s generalizing written with
  | case1 => simp [images, marks]
  | case2 afterDot c rest first =>
    rename_i ih
    have hleads := leads_next afterDot c rest
    have hfits := fits_images (first.1 == .other '.') ((first.1.image written).reverse ++ written)
      first.2
    rw [images]
    -- the induction goes over the pieces; only those that are no code are among the marks
    cases hcode : first.1.isCode with
    | true =>
      obtain ⟨hsource, himage⟩ := hleads.marks_of_isCode hcode hfits written
      rw [hsource, ← ih]
      exact himage
    | false =>
      rw [hleads.marks_of_not_isCode hcode, List.map_cons, ← ih]
      exact (hleads.image hcode hfits false written).marks_of_not_isCode
        ((isCode_inScript first.1).trans hcode)

/-- **Rule texts are rewritten piece by piece.** The pieces of a text are the text, and each one is what
the rest of the text starts with there. The script form is the script text of the pieces, one after the
other, and a piece that none of the listed rewrites is for is copied. The literals and comments of the
script form are those of the text, single-quoted literals in their new spelling. -/
theorem toScript_rewrites (text : String) :
    (cut text).flatMap Piece.source = text.toList ∧
    (toScript text).toList = images [] (cut text) ∧
    (∀ before piece after, cut text = before ++ piece :: after →
      Leads (before.getLast?.elim false (· == .other '.'))
          (piece.source ++ after.flatMap Piece.source) piece (after.flatMap Piece.source) ∧
        piece.Becomes (images [] before).reverse (piece.image (images [] before).reverse)) ∧
    (cut (toScript text)).filter (!·.isCode) =
      ((cut text).filter (!·.isCode)).map Piece.inScript := by
  refine ⟨source_cutFrom false _, toList_toScript text, fun before piece after h => ⟨?_, ?_⟩, ?_⟩
  · exact leads_cutFrom h
  · have hbecomes := @becomes_cutFrom false text.toList [] (fun _ => rfl) before after piece h
    rwa [List.append_nil] at hbecomes
  · rw [cut, cut, filter_cutFrom, filter_cutFrom, toList_toScript, cut, marks_images]

end Rulebook.Surface
