import Rulebook.Proofs.Surface.Seams

/-!
# The script text of the pieces of a text

`images` puts the script text of pieces together from the left. Its first character tells enough about
the first character of the rule text (`fits_images`) that no piece grows into the script text of the
next one. So literals and comments are found again in the script text, single-quoted literals as
double-quoted ones: `Leads.image`.
-/

namespace Rulebook.Surface

open Mode

/-- The script text of the pieces after the script text `written`, which is given in reverse. -/
def images (written : List Char) : List Piece → List Char
  | [] => []
  | piece :: rest => piece.image written ++ images ((piece.image written).reverse ++ written) rest

theorem imagesAfter_eq (written : List Char) (pieces : List Piece) :
    imagesAfter written pieces = (images written pieces).reverse ++ written := by
  induction pieces generalizing written with
  | nil => rfl
  | cons piece rest ih => rw [imagesAfter, ih, images, List.reverse_append, List.append_assoc]

theorem toList_toScript (text : String) : (toScript text).toList = images [] (cut text) := by
  rw [toScript, String.toList_ofList, imagesAfter_eq, List.append_nil, List.reverse_reverse]

/-! ### First characters -/

/-- `Fronts c d` says that the image of a piece that begins with `c` can begin with `d`. -/
inductive Fronts : Char → Char → Prop where
  | same (c : Char) : Fronts c c
  | quote : Fronts '\'' '"'
  | brace : Fronts '\x7b' '#'
  | unit {c : Char} (h : isWordStart c = true) : Fronts c '('
  | name {c d : Char} (hc : isWordStart c = true) (hd : isWordStart d = true) : Fronts c d

/-- `Fits s t` says that `t` can begin as the script text of the text `s`. -/
inductive Fits : List Char → List Char → Prop where
  | nil : Fits [] []
  | cons {c d : Char} {s t : List Char} (h : Fronts c d) : Fits (c :: s) (d :: t)

theorem isWordPart_of_isWordStart {c : Char} (h : isWordStart c = true) : isWordPart c = true := by
  simp only [isWordStart, isWordPart, Text.isAlphanumeric, Bool.or_eq_true] at h ⊢
  exact h.imp_left .inl

theorem isNumberPart_of_isWordStart {c : Char} (h : isWordStart c = true) :
    isNumberPart c = true := by
  simp [isNumberPart, isWordPart_of_isWordStart h]

/-- A class that holds all letters, but none of the signs that images begin with, is not entered. -/
theorem Fronts.of_class {p : Char → Bool} (hstart : ∀ c, isWordStart c = true → p c = true)
    (hsigns : ['"', '#', '('].all (fun d => !p d) = true) {c d : Char} (h : Fronts c d)
    (hd : p d = true) : p c = true := by
  have hsign (e : Char) (he : e ∈ ['"', '#', '(']) : p e = false := by
    simpa using List.all_eq_true.1 hsigns e he
  cases h with
  | same => exact hd
  | quote => simp [hsign] at hd
  | brace => simp [hsign] at hd
  | unit h => exact hstart c h
  | name hc => exact hstart c hc

/-- The signs that are written only where they are read. -/
theorem Fronts.eq_of_sign {c d : Char} (h : Fronts c d)
    (hd : d ∈ ['/', '*', '=', '\x7b', '.', '\n']) : c = d := by
  have hall : ['/', '*', '=', '\x7b', '.', '\n'].all (fun d =>
      decide (d ≠ '"' ∧ d ≠ '#' ∧ d ≠ '(' ∧ isWordStart d = false)) = true := by decide
  obtain ⟨hquote, hhash, hparen, hstart⟩ := of_decide_eq_true (List.all_eq_true.1 hall d hd)
  cases h with
  | same => rfl
  | quote => exact absurd rfl hquote
  | brace => exact absurd rfl hhash
  | unit => exact absurd rfl hparen
  | name _ hname =>
    rw [hstart] at hname
    cases hname

theorem Fits.exists_cons_of_sign {s t : List Char} {d : Char} (h : Fits s (d :: t))
    (hd : d ∈ ['/', '*', '=', '\x7b', '.', '\n']) : ∃ rest, s = d :: rest := by
  cases h with
  | cons hfronts =>
    cases hfronts.eq_of_sign hd
    exact ⟨_, rfl⟩

theorem Fits.head_ne {s t : List Char} {d : Char} (h : Fits s t) (hs : s.head? ≠ some d)
    (hd : d ∈ ['/', '*', '=', '\x7b', '.', '\n']) : t.head? ≠ some d := by
  intro ht
  obtain ⟨rest, rfl⟩ := List.head?_eq_some_iff.1 ht
  obtain ⟨s, rfl⟩ := h.exists_cons_of_sign hd
  exact hs rfl

/-- A line break stays a line break. -/
theorem Fits.line {s t : List Char} (h : Fits s t) (hs : s.head?.any (· != '\n') = false) :
    t.head?.any (· != '\n') = false := by
  cases h with
  | nil => rfl
  | @cons c d s t hfronts =>
    have hc : c = '\n' := by simpa using hs
    subst hc
    cases hfronts with
    | same => exact hs
    | unit h => cases h
    | name h => cases h

theorem Fits.head_any {p : Char → Bool} (hstart : ∀ c, isWordStart c = true → p c = true)
    (hsigns : ['"', '#', '('].all (fun d => !p d) = true) {s t : List Char} (h : Fits s t)
    (hs : s.head?.any p = false) : t.head?.any p = false := by
  cases h with
  | nil => rfl
  | @cons c d s t hfronts =>
    have hc : p c = false := hs
    by_contra hd
    have := hfronts.of_class hstart hsigns (by simpa using hd)
    rw [hc] at this
    cases this

theorem Leads.exists_fronts {afterDot : Bool} {s rest : List Char} {piece : Piece}
    (h : Leads afterDot s piece rest) (written : List Char) :
    ∃ c tail d more, s = c :: tail ∧ piece.image written = d :: more ∧ Fronts c d := by
  cases h with
  | literal => exact ⟨_, _, _, _, rfl, rfl, .same _⟩
  | single => exact ⟨_, _, _, _, rfl, rfl, .quote⟩
  | remark => exact ⟨_, _, _, _, rfl, rfl, .same _⟩
  | block => exact ⟨_, _, _, _, rfl, rfl, .same _⟩
  | word hstart =>
    rw [Piece.image, wordImage]
    split
    · exact ⟨_, _, _, _, rfl, rfl, .same _⟩
    split
    · exact ⟨_, _, _, _, rfl, rfl, .unit hstart⟩
    split
    · exact ⟨_, _, _, _, rfl, rfl, .name hstart (by decide)⟩
    · exact ⟨_, _, _, _, rfl, rfl, .same _⟩
  | json writing =>
    cases writing <;> exact ⟨_, _, _, _, rfl, rfl, .name (by decide) (by decide)⟩
  | number => exact ⟨_, _, _, _, rfl, rfl, .same _⟩
  | strict negated => cases negated <;> exact ⟨_, _, _, _, rfl, rfl, .same _⟩
  | objectOpen => exact ⟨_, _, _, _, rfl, rfl, .same _⟩
  | brace =>
    rw [Piece.image]
    split
    · exact ⟨_, _, _, _, rfl, rfl, .brace⟩
    · exact ⟨_, _, _, _, rfl, rfl, .same _⟩
  | other => exact ⟨_, _, _, _, rfl, rfl, .same _⟩

/-- The script text of a text begins as its first piece allows. -/
theorem fits_images (afterDot : Bool) (written s : List Char) :
    Fits s (images written (cutFrom afterDot s)) := by
  cases s with
  | nil =>
    rw [cutFrom]
    exact .nil
  | cons c rest =>
    obtain ⟨c', tail, d, more, htext, himage, hfronts⟩ :=
      (leads_next afterDot c rest).exists_fronts written
    obtain ⟨rfl, rfl⟩ := List.cons.inj htext
    rw [cutFrom_cons, images, himage]
    exact .cons hfronts

/-! ### Literals and comments -/

/-- The piece as which a literal or a comment is found again in the script text. -/
def Piece.inScript : Piece → Piece
  | single text => literal (requote text)
  | piece => piece

theorem splitLiteral_self (quote : Char) (s : List Char) :
    splitLiteral quote (splitLiteral quote s).1 = ((splitLiteral quote s).1, []) := by
  fun_induction splitLiteral quote s with
  | case1 => rfl
  | case2 => rfl
  | case3 c rest inside after heq ih =>
    rw [heq] at ih
    simp only [splitLiteral]
    rw [ih]
  | case4 rest hlast hpair => rw [splitLiteral_cons _ (ne_backslash hlast hpair), if_pos rfl]
  | case5 c rest hlast hpair hquote inside after heq ih =>
    rw [heq] at ih
    rw [splitLiteral_cons _ (ne_backslash hlast hpair), if_neg hquote, ih]

theorem splitBlock_self (s : List Char) :
    splitBlock (splitBlock s).1 = ((splitBlock s).1, []) := by
  fun_induction splitBlock s with
  | case1 => rfl
  | case2 rest => rfl
  | case3 c rest hmark inside after heq ih =>
    have happend := splitBlock_append rest
    rw [heq] at ih happend
    rw [splitBlock_cons, ih]
    rintro tail hc rfl
    exact hmark (tail ++ after) hc happend.symm

/-- A literal is found again in front of other text, if it is closed, and at the end. -/
theorem splitLiteral_append_of_self {quote : Char} {inside more : List Char}
    (hself : splitLiteral quote inside = (inside, []))
    (h : closesLiteral quote inside = true ∨ more = []) :
    splitLiteral quote (inside ++ more) = (inside, more) := by
  rcases h with hcloses | rfl
  · have := @splitLiteral_append_of_closes quote inside (by rwa [hself]) more
    rwa [hself] at this
  · rwa [List.append_nil]

theorem splitBlock_append_of_self {inside more : List Char}
    (hself : splitBlock inside = (inside, []))
    (h : closesBlock inside = true ∨ more = []) :
    splitBlock (inside ++ more) = (inside, more) := by
  rcases h with hcloses | rfl
  · have := @splitBlock_append_of_closes inside (by rwa [hself]) more
    rwa [hself] at this
  · rwa [List.append_nil]

/-- Between double quotes the inside of a single-quoted literal does not come to an end before the
closing quote. -/
theorem splitLiteral_requoteBody (body : List Char) :
    splitLiteral '"' (requoteBody body ++ ['"']) = (requoteBody body ++ ['"'], []) := by
  fun_induction requoteBody body with
  | case1 => rfl
  | case2 => rfl
  | case3 rest ih =>
    rw [List.cons_append, splitLiteral_cons _ (by decide), if_neg (by decide), ih]
  | case4 c rest hc ih =>
    simp only [List.cons_append, splitLiteral]
    rw [ih]
  | case5 rest ih =>
    simp only [List.cons_append, splitLiteral]
    rw [ih]
  | case6 c rest hlast hescape hpair hquote ih =>
    have hne := ne_backslash hlast hpair
    rw [List.cons_append, splitLiteral_cons _ hne, if_neg hquote, ih]

/-- A piece that is closed or the last one. -/
theorem Leads.closed_or {afterDot : Bool} {s rest more : List Char} {piece : Piece}
    (h : Leads afterDot s piece rest) (hfits : Fits rest more) :
    piece.closed = true ∨ more = [] := by
  rcases h.starts.cases with ⟨hclosed, -⟩ | ⟨-, rfl, -⟩
  · exact .inl hclosed
  · cases hfits
    exact .inr rfl

theorem closesLiteral_requoteBody {s : List Char}
    (h : closesLiteral '\'' (splitLiteral '\'' s).1 = true) :
    closesLiteral '"'
      (requoteBody (literalBody ('\'' :: (splitLiteral '\'' s).1)) ++ ['"']) = true := by
  have hrun := run_requote h
  have hself := splitLiteral_requoteBody (literalBody ('\'' :: (splitLiteral '\'' s).1))
  rcases run_splitLiteral '"'
    (requoteBody (literalBody ('\'' :: (splitLiteral '\'' s).1)) ++ ['"']) with ⟨hcloses, -⟩ | hopen
  · rwa [hself] at hcloses
  · have hinside : (run .code (requote ('\'' :: (splitLiteral '\'' s).1))).isOutside = false := by
      rw [hself] at hopen
      exact hopen.2.2
    rw [hrun] at hinside
    cases hinside

/-- A literal of which the inside is known. -/
theorem leads_literal {quote : Char} (hquote : quote = '"' ∨ quote = '\x60') {inside more : List Char}
    (hsplit : splitLiteral quote (inside ++ more) = (inside, more)) (afterDot : Bool) :
    Leads afterDot (quote :: (inside ++ more)) (.literal (quote :: inside)) more := by
  have := @Leads.literal afterDot quote (inside ++ more) hquote
  rwa [hsplit] at this

/-- Literals and comments are found again in the script text. -/
theorem Leads.image {afterDot : Bool} {s rest more : List Char} {piece : Piece}
    (h : Leads afterDot s piece rest) (hcode : piece.isCode = false) (hfits : Fits rest more)
    (dotted : Bool) (written : List Char) :
    Leads dotted (piece.image written ++ more) piece.inScript more := by
  have hclosed := h.closed_or hfits
  cases h with
  | @literal quote s hquote =>
    exact leads_literal hquote
      (splitLiteral_append_of_self (splitLiteral_self quote s) hclosed) dotted
  | single s =>
    exact leads_literal (.inl rfl) (splitLiteral_append_of_self (splitLiteral_requoteBody _)
      (hclosed.imp_left closesLiteral_requoteBody)) dotted
  | remark s =>
    have hline := hfits.line (head_dropWhile _ s)
    have := @Leads.remark dotted (s.takeWhile (· != '\n') ++ more)
    rwa [takeWhile_append_stop List.all_takeWhile hline,
      dropWhile_append_stop List.all_takeWhile hline] at this
  | block s =>
    have hsplit := splitBlock_append_of_self (splitBlock_self s) hclosed
    have := @Leads.block dotted ((splitBlock s).1 ++ more)
    rwa [hsplit] at this
  | _ => cases hcode

end Rulebook.Surface
