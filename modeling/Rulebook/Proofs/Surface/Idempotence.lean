import Rulebook.Proofs.Surface.Images

/-!
# Script forms are left alone

Written down as a rule text, script text is its own script form: `toScript_toScript`. Every piece is
found again in its image as pieces that stay as they are (`Piece.again`, `settled_again`). Strict
comparisons are the only pieces whose images can grow together with what follows, and only if an equals
sign follows (`Leads.cutFrom_image`).
-/

namespace Rulebook.Surface

/-- A text in which no strict comparison is followed by an equals sign. -/
structure Unmerged (s : List Char) : Prop where
  equal : ¬['=', '=', '=', '='] <:+: s
  unequal : ¬['!', '=', '=', '='] <:+: s

theorem Unmerged.of_append {s t : List Char} (h : Unmerged (s ++ t)) : Unmerged t :=
  have htail : t <:+: s ++ t := (List.suffix_append s t).isInfix
  ⟨fun hrow => h.equal (hrow.trans htail), fun hrow => h.unequal (hrow.trans htail)⟩

/-- The pieces as which a piece is found again in its image after the script text `written`, which is
given in reverse. -/
def Piece.again (written : List Char) : Piece → List Piece
  | strict false => [other '=', other '=']
  | strict true => [other '!', other '=']
  | brace => if expectsExpression written then [objectOpen] else [brace]
  | word afterDot text =>
    if afterDot = false ∧ (text = "null".toList ∨ text = "undefined".toList) then
      [other '(', other ')']
    else [word afterDot (wordImage afterDot text)]
  | json false => [word false "json_parse".toList]
  | json true => [word false "json_stringify".toList]
  | piece => [piece.inScript]

/-- The pieces of the script text of pieces. -/
def found (written : List Char) : List Piece → List Piece
  | [] => []
  | piece :: rest => piece.again written ++ found ((piece.image written).reverse ++ written) rest

/-! ### What is found again is copied -/

/-- Whether pieces stay as they are after the script text `written`, which is given in reverse. -/
def Settled (written : List Char) : List Piece → Prop
  | [] => True
  | piece :: rest =>
    piece.image written = piece.source ∧ Settled (piece.source.reverse ++ written) rest

theorem settled_append_iff {written : List Char} {first second : List Piece} :
    Settled written (first ++ second) ↔
      Settled written first ∧ Settled ((first.flatMap Piece.source).reverse ++ written) second := by
  induction first generalizing written with
  | nil => simp [Settled]
  | cons piece rest ih => simp [Settled, ih, and_assoc]

/-- The script text of pieces that stay as they are is their text. -/
theorem Settled.images_eq {written : List Char} {pieces : List Piece} (h : Settled written pieces) :
    images written pieces = pieces.flatMap Piece.source := by
  induction pieces generalizing written with
  | nil => rfl
  | cons piece rest ih => rw [images, h.1, ih h.2, List.flatMap_cons]

theorem wordImage_of_unit {text : List Char}
    (h : text = "null".toList ∨ text = "undefined".toList) : wordImage false text = ['(', ')'] := by
  rw [wordImage, if_neg Bool.false_ne_true, if_pos h]

/-- Any other word stays as it is, unless it declares a variable. -/
theorem wordImage_of_not_unit {afterDot : Bool} {text : List Char}
    (h : ¬(afterDot = false ∧ (text = "null".toList ∨ text = "undefined".toList))) :
    wordImage afterDot text = "let".toList ∨ wordImage afterDot text = text := by
  cases afterDot with
  | true => exact .inr rfl
  | false =>
    rw [wordImage, if_neg Bool.false_ne_true, if_neg fun hunit => h ⟨rfl, hunit⟩]
    split
    · exact .inl rfl
    · exact .inr rfl

/-- The pieces as which a piece is found again make up its image and stay as they are. -/
theorem settled_again (written : List Char) (piece : Piece) :
    (piece.again written).flatMap Piece.source = piece.image written ∧
      Settled written (piece.again written) := by
  cases piece with
  | strict negated => cases negated <;> exact ⟨rfl, rfl, rfl, trivial⟩
  | brace =>
    rw [Piece.again, Piece.image]
    split
    · exact ⟨rfl, rfl, trivial⟩
    · rename_i hexpects
      exact ⟨rfl, if_neg hexpects, trivial⟩
  | word afterDot text =>
    rw [Piece.again, Piece.image]
    split
    · rename_i hunit
      rw [hunit.1, wordImage_of_unit hunit.2]
      exact ⟨rfl, rfl, rfl, trivial⟩
    · rename_i hunit
      refine ⟨List.append_nil _, ?_, trivial⟩
      rw [Piece.image, Piece.source]
      rcases wordImage_of_not_unit hunit with hlet | hsame
      · rw [hlet]
        cases afterDot <;> rfl
      · rw [hsame, hsame]
  | json writing => cases writing <;> exact ⟨rfl, rfl, trivial⟩
  | _ => exact ⟨List.append_nil _, rfl, trivial⟩

theorem settled_found (written : List Char) (pieces : List Piece) :
    Settled written (found written pieces) := by
  induction pieces generalizing written with
  | nil => trivial
  | cons piece rest ih =>
    obtain ⟨hsource, hsettled⟩ := settled_again written piece
    rw [found, settled_append_iff, hsource]
    exact ⟨hsettled, ih _⟩

/-! ### Signs -/

theorem leads_equals {c : Char} (hc : c = '=' ∨ c = '!') (afterDot : Bool) (rest : List Char)
    (hrest : ∀ more, rest ≠ '=' :: '=' :: more) : Leads afterDot (c :: rest) (.other c) rest := by
  refine .other ⟨?_, ?_, ?_, ?_, ?_, ?_, fun _ => hrest⟩ <;> rcases hc with rfl | rfl <;>
    first | rfl | decide | exact fun h => absurd h (by decide)

/-- The image of a strict comparison is found again as two signs. -/
theorem cutFrom_equals {c : Char} (hc : c = '=' ∨ c = '!') (afterDot : Bool) {rest : List Char}
    (hrest : rest.head? ≠ some '=') :
    cutFrom afterDot (c :: '=' :: rest) = .other c :: .other '=' :: cutFrom false rest := by
  have hsecond := leads_equals (.inl rfl) false rest fun more h => hrest (by rw [h]; rfl)
  have hfirst := leads_equals hc afterDot ('=' :: rest) fun more h => hrest (by
    rw [(List.cons.inj h).2]
    rfl)
  have hdot : (Piece.other c == .other '.') = false := by rcases hc with rfl | rfl <;> rfl
  rw [hfirst.cutFrom_eq, hdot, hsecond.cutFrom_eq]
  rfl

/-- Two equals signs in a row are only written where they are read. -/
theorem exists_of_images_eq_equals {afterDot : Bool} {s written more : List Char}
    (h : images written (cutFrom afterDot s) = '=' :: '=' :: more) :
    ∃ rest, s = '=' :: '=' :: rest := by
  have hfits := fits_images afterDot written s
  rw [h] at hfits
  obtain ⟨tail, rfl⟩ := hfits.exists_cons_of_sign (by decide)
  -- either the text goes on with a strict comparison, or its first sign is a piece of its own
  by_cases hstrict : ∃ rest, tail = '=' :: '=' :: rest
  · obtain ⟨rest, rfl⟩ := hstrict
    exact ⟨'=' :: rest, rfl⟩
  · have hleads := leads_equals (.inl rfl) afterDot tail fun more h => hstrict ⟨more, h⟩
    rw [hleads.cutFrom_eq, images] at h
    obtain ⟨-, htail⟩ := List.cons.inj h
    have hnext := fits_images (Piece.other '=' == .other '.') ('=' :: written) tail
    rw [show images ('=' :: written) _ = _ from htail] at hnext
    obtain ⟨rest, rfl⟩ := hnext.exists_cons_of_sign (by decide)
    exact ⟨rest, rfl⟩

/-! ### Functions of JSON -/

/-- After a dot a word is written as it is read. -/
theorem takeWhile_images {c : Char} (hc : isWordStart c = true) (written s : List Char) :
    (images written (cutFrom true (c :: s))).takeWhile isWordPart =
      (c :: s).takeWhile isWordPart := by
  have htail : (s.takeWhile isWordPart).all isWordPart = true := List.all_takeWhile
  have hrest := head_dropWhile isWordPart s
  have hword := @Leads.word true _ _ _ hc htail hrest fun _ h => nomatch h
  rw [List.takeWhile_append_dropWhile] at hword
  have hpart := isWordPart_of_isWordStart hc
  have hmore := (fits_images false ((c :: s.takeWhile isWordPart).reverse ++ written)
    (s.dropWhile isWordPart)).head_any (fun _ => isWordPart_of_isWordStart) (by decide) hrest
  have hall : (c :: s.takeWhile isWordPart).all isWordPart = true := by simp [hpart]
  rw [hword.cutFrom_eq, List.takeWhile_cons_of_pos hpart]
  exact takeWhile_append_stop hall hmore

/-- The script text of a text names a function of `JSON` only if the text does. -/
theorem exists_of_afterMember_images {written s after : List Char} {writing : Bool}
    (h : afterMember (member writing) (images written (cutFrom false s)) = some after) :
    ∃ rest, afterMember (member writing) s = some rest := by
  have htext := append_of_afterMember h
  have hafter := head_of_afterMember h
  obtain ⟨c, name, hmember, hc, hname⟩ : ∃ c name, member writing = '.' :: c :: name ∧
      isWordStart c = true ∧ (c :: name).all isWordPart = true := by
    cases writing
    · exact ⟨'p', _, rfl, rfl, rfl⟩
    · exact ⟨'s', _, rfl, rfl, rfl⟩
  rw [hmember] at htext ⊢
  have hfits := fits_images false written s
  rw [← htext] at hfits
  obtain ⟨tail, rfl⟩ := hfits.exists_cons_of_sign (by decide)
  have hdot : Leads false ('.' :: tail) (.other '.') tail := .other
    ⟨rfl, rfl, rfl, by decide, fun h => absurd h (by decide), fun h => absurd h (by decide),
      fun h => absurd h (by decide)⟩
  rw [hdot.cutFrom_eq, images] at htext
  have himages : images ('.' :: written) (cutFrom true tail) = c :: name ++ after :=
    (List.cons.inj htext).2.symm
  -- what follows the dot is a word in the text, too, and it is not changed
  have hnext := fits_images true ('.' :: written) tail
  rw [himages] at hnext
  obtain ⟨d, rest, rfl, hd⟩ : ∃ d rest, tail = d :: rest ∧ isWordStart d = true := by
    cases hnext with
    | cons hfronts => exact ⟨_, _, rfl, hfronts.of_class (fun _ h => h) (by decide) hc⟩
  have hword := takeWhile_images hd ('.' :: written) rest
  rw [himages, takeWhile_append_stop hname hafter] at hword
  have hsplit := List.takeWhile_append_dropWhile (p := isWordPart) (l := d :: rest)
  rw [← hword] at hsplit
  have hnamed := afterMember_append (head_dropWhile isWordPart (d :: rest)) ('.' :: c :: name)
  rw [List.cons_append, hsplit] at hnamed
  exact ⟨_, hnamed⟩

/-! ### The pieces of the script form -/

/-- A word is found again in its image: the unit as its two signs, which stand alone, and any other
word as a word. -/
theorem cutFrom_word_image {afterDot : Bool} {c : Char} {tail rest : List Char}
    (hstart : isWordStart c = true) (htail : tail.all isWordPart = true)
    (hrest : rest.head?.any isWordPart = false)
    (hjson : c :: tail = ['J', 'S', 'O', 'N'] → afterDot = false →
      ∀ writing, afterMember (member writing) rest = none)
    (written : List Char) :
    let piece := Piece.word afterDot (c :: tail)
    let more := images ((piece.image written).reverse ++ written) (cutFrom false rest)
    cutFrom afterDot (piece.image written ++ more) = piece.again written ++ cutFrom false more := by
  intro piece more
  have hmore : more.head?.any isWordPart = false :=
    (fits_images _ _ _).head_any (fun _ => isWordPart_of_isWordStart) (by decide) hrest
  simp only [piece, Piece.image, Piece.again]
  split
  · rename_i hunit
    rw [hunit.1, wordImage_of_unit hunit.2]
    show cutFrom false ('(' :: ')' :: more) = _
    rw [(leads_seam (by decide) false _).cutFrom_eq, (leads_seam (by decide) _ more).cutFrom_eq]
    rfl
  · rename_i hunit
    rcases wordImage_of_not_unit hunit with hlet | hsame
    · rw [hlet]
      exact (@Leads.word afterDot 'l' ['e', 't'] more rfl rfl hmore
        fun h => absurd h (by decide)).cutFrom_eq
    · rw [hsame]
      -- `JSON` stays a word if what follows it names none of its functions
      refine (Leads.word hstart htail hmore fun hname hdot writing => ?_).cutFrom_eq
      rw [Option.eq_none_iff_forall_ne_some]
      intro after hnamed
      obtain ⟨found, hfound⟩ := exists_of_afterMember_images hnamed
      rw [hjson hname hdot writing] at hfound
      cases hfound

/-- A piece is found again in its image, whatever text the script text that follows belongs to. -/
theorem Leads.cutFrom_image {afterDot : Bool} {s rest : List Char} {piece : Piece}
    (h : Leads afterDot s piece rest) (hclean : Unmerged s) (written : List Char) :
    let more := images ((piece.image written).reverse ++ written)
      (cutFrom (piece == .other '.') rest)
    cutFrom afterDot (piece.image written ++ more) =
      piece.again written ++ cutFrom (piece == .other '.') more := by
  intro more
  have hfits : Fits rest more := fits_images _ _ _
  have hpart (h : rest.head?.any isWordPart = false) : more.head?.any isWordPart = false :=
    hfits.head_any (fun _ => isWordPart_of_isWordStart) (by decide) h
  have hmark (hcode : piece.isCode = false) := (h.image hcode hfits afterDot written).cutFrom_eq
  cases h with
  | literal => exact hmark rfl
  | single => exact hmark rfl
  | remark => exact hmark rfl
  | block => exact hmark rfl
  | word hstart htail hrest hjson => exact cutFrom_word_image hstart htail hrest hjson written
  | json writing hdot hrest =>
    subst hdot
    cases writing
    · exact (@Leads.word false 'j' "son_parse".toList more rfl rfl (hpart hrest)
        fun h => absurd h (by decide)).cutFrom_eq
    · exact (@Leads.word false 'j' "son_stringify".toList more rfl rfl (hpart hrest)
        fun h => absurd h (by decide)).cutFrom_eq
  | number hdigit htail hrest =>
    exact (Leads.number hdigit htail
      (hfits.head_any (fun _ => isNumberPart_of_isWordStart) (by decide) hrest)).cutFrom_eq
  | strict negated rest =>
    -- an equals sign behind the image would stand behind the comparison in the text
    have hnext : more.head? ≠ some '=' := by
      refine hfits.head_ne (fun hhead => ?_) (by decide)
      obtain ⟨tail, rfl⟩ := List.head?_eq_some_iff.1 hhead
      cases negated
      · exact hclean.equal ⟨[], tail, rfl⟩
      · exact hclean.unequal ⟨[], tail, rfl⟩
    cases negated
    · exact cutFrom_equals (.inl rfl) afterDot hnext
    · exact cutFrom_equals (.inr rfl) afterDot hnext
  | objectOpen rest => exact (Leads.objectOpen more).cutFrom_eq
  | brace rest =>
    rw [Piece.image, Piece.again]
    split
    · exact (Leads.objectOpen more).cutFrom_eq
    · exact (Leads.brace more).cutFrom_eq
  | @other c rest halone =>
    have hequals (hc : c = '=' ∨ c = '!') (after : List Char) : more ≠ '=' :: '=' :: after := by
      intro hmore
      obtain ⟨tail, htail⟩ := exists_of_images_eq_equals hmore
      exact halone.equals hc tail htail
    have hleads : Leads afterDot (c :: more) (.other c) more := .other { halone with
      slash hc := ⟨hfits.head_ne (halone.slash hc).1 (by decide),
        hfits.head_ne (halone.slash hc).2 (by decide)⟩
      hash hc := hfits.head_ne (halone.hash hc) (by decide)
      equals := hequals }
    exact hleads.cutFrom_eq

/-- The pieces of the script text of a text. -/
theorem cutFrom_images {afterDot : Bool} {s : List Char} (h : Unmerged s) (written : List Char) :
    cutFrom afterDot (images written (cutFrom afterDot s)) = found written (cutFrom afterDot s) := by
  fun_induction cutFrom afterDot s generalizing written with
  | case1 => rw [images, cutFrom, found]
  | case2 afterDot c rest first =>
    rename_i ih
    have hleads := leads_next afterDot c rest
    have hrest : Unmerged first.2 := by
      rw [← hleads.starts.source_append] at h
      exact h.of_append
    rw [images, found, ← ih hrest]
    exact hleads.cutFrom_image h written

/-- **Script text is its own script form.** In the script form of a text in which no strict comparison
is followed by an equals sign, every piece stays as it is at its place. -/
theorem toScript_toScript (text : String) (hequal : ¬"====".toList <:+: text.toList)
    (hunequal : ¬"!===".toList <:+: text.toList) :
    Settled [] (cut (toScript text)) ∧ toScript (toScript text) = toScript text := by
  have hsettled : Settled [] (cut (toScript text)) := by
    rw [cut, toList_toScript, cut, cutFrom_images ⟨hequal, hunequal⟩ []]
    exact settled_found [] _
  refine ⟨hsettled, ?_⟩
  rw [← String.toList_inj, toList_toScript, hsettled.images_eq]
  exact source_cutFrom false _

/-- A statement that is rewritten in several places. -/
theorem toScript_toScript_of_statement :
    let statement := "var name = input.name === null ? 'it\\'s' : \x7ba: 1\x7d"
    ¬"====".toList <:+: statement.toList ∧ ¬"!===".toList <:+: statement.toList ∧
      Settled [] (cut (toScript statement)) ∧ toScript (toScript statement) = toScript statement := by
  intro statement
  have hequal : ¬"====".toList <:+: statement.toList := by decide +kernel
  have hunequal : ¬"!===".toList <:+: statement.toList := by decide +kernel
  exact ⟨hequal, hunequal, toScript_toScript statement hequal hunequal⟩

end Rulebook.Surface
