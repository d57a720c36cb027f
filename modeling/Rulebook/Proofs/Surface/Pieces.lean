import Rulebook.Proofs.Text.Runs
import Rulebook.Surface.Piece

/-!
# How a text starts with a piece

`Leads` says what the first piece of a text is and what has to follow it: words and numbers are as
long as they can be, a function of `JSON` is no longer word, and a sign stands alone only if nothing
longer begins with it. The first piece is unique, and `next` finds it (`leads_next`, `Leads.next_eq`).
So the pieces of a text that is put together from known parts are found without running the scan.
-/

namespace Rulebook.Surface

/-- A character that opens a literal. -/
def isQuote (c : Char) : Bool := c == '"' || c == '\x60' || c == '\''

/-- What follows `JSON` where one of its functions is named. -/
def member (writing : Bool) : List Char :=
  if writing then ['.', 's', 't', 'r', 'i', 'n', 'g', 'i', 'f', 'y']
  else ['.', 'p', 'a', 'r', 's', 'e']

/-- The signs after which a character is a piece of its own. -/
structure StandsAlone (c : Char) (rest : List Char) : Prop where
  quote : isQuote c = false
  start : isWordStart c = false
  digit : c.isDigit = false
  brace : c ≠ '\x7b'
  slash : c = '/' → rest.head? ≠ some '/' ∧ rest.head? ≠ some '*'
  hash : c = '#' → rest.head? ≠ some '\x7b'
  equals : c = '=' ∨ c = '!' → ∀ more, rest ≠ '=' :: '=' :: more

/-- `Leads afterDot s piece rest` says that the text `s`, which follows a dot or does not, starts with
`piece` and goes on with `rest`. -/
inductive Leads (afterDot : Bool) : List Char → Piece → List Char → Prop where
  | literal {quote : Char} (s : List Char) (h : quote = '"' ∨ quote = '\x60') :
    Leads afterDot (quote :: s) (.literal (quote :: (splitLiteral quote s).1))
      (splitLiteral quote s).2
  | single (s : List Char) :
    Leads afterDot ('\'' :: s) (.single ('\'' :: (splitLiteral '\'' s).1)) (splitLiteral '\'' s).2
  | remark (s : List Char) :
    Leads afterDot ('/' :: '/' :: s) (.comment ('/' :: '/' :: s.takeWhile (· != '\n')))
      (s.dropWhile (· != '\n'))
  | block (s : List Char) :
    Leads afterDot ('/' :: '*' :: s) (.comment ('/' :: '*' :: (splitBlock s).1)) (splitBlock s).2
  | word {c : Char} {tail rest : List Char} (hstart : isWordStart c = true)
    (htail : tail.all isWordPart = true) (hrest : rest.head?.any isWordPart = false)
    (hjson : c :: tail = ['J', 'S', 'O', 'N'] → afterDot = false →
      ∀ writing, afterMember (member writing) rest = none) :
    Leads afterDot (c :: (tail ++ rest)) (.word afterDot (c :: tail)) rest
  | json (writing : Bool) {rest : List Char} (hdot : afterDot = false)
    (hrest : rest.head?.any isWordPart = false) :
    Leads afterDot (['J', 'S', 'O', 'N'] ++ (member writing ++ rest)) (.json writing) rest
  | number {c : Char} {tail rest : List Char} (hdigit : c.isDigit = true)
    (htail : tail.all isNumberPart = true) (hrest : rest.head?.any isNumberPart = false) :
    Leads afterDot (c :: (tail ++ rest)) (.number (c :: tail)) rest
  | strict (negated : Bool) (rest : List Char) :
    Leads afterDot ((if negated then '!' else '=') :: '=' :: '=' :: rest) (.strict negated) rest
  | objectOpen (rest : List Char) : Leads afterDot ('#' :: '\x7b' :: rest) .objectOpen rest
  | brace (rest : List Char) : Leads afterDot ('\x7b' :: rest) .brace rest
  | other {c : Char} {rest : List Char} (h : StandsAlone c rest) :
    Leads afterDot (c :: rest) (.other c) rest

/-! ### Names of functions -/

theorem append_of_afterMember {lead s after : List Char} (h : afterMember lead s = some after) :
    lead ++ after = s := by
  fun_induction afterMember lead s <;> simp_all

theorem afterMember_append {rest : List Char} (h : rest.head?.any isWordPart = false)
    (lead : List Char) : afterMember lead (lead ++ rest) = some rest := by
  induction lead with
  | nil =>
    cases rest with
    | nil => rfl
    | cons c rest =>
      have hc : isWordPart c = false := h
      simp [afterMember, hc]
  | cons c lead ih => simpa [afterMember] using ih

/-- No word goes on behind the name of a function. -/
theorem head_of_afterMember {lead s after : List Char} (h : afterMember lead s = some after) :
    after.head?.any isWordPart = false := by
  fun_induction afterMember lead s with
  | case1 => cases h; rfl
  | case2 => cases h
  | case3 c rest hc =>
    cases h
    simpa using hc
  | case4 => cases h
  | case5 lead c rest ih => exact ih h
  | case6 => cases h

/-- Only one of the two functions is named. -/
theorem afterMember_of_ne {writing other : Bool} (h : writing ≠ other) (rest : List Char) :
    afterMember (member writing) (member other ++ rest) = none := by
  cases writing <;> cases other <;> first | rfl | exact absurd rfl h

/-! ### The first piece -/

theorem head_dropWhile (p : Char → Bool) (s : List Char) :
    (s.dropWhile p).head?.any p = false := by
  cases hs : s.dropWhile p with
  | nil => rfl
  | cons c rest =>
    have hhead := List.head_dropWhile_not p (by rw [hs]; exact List.cons_ne_nil _ _)
    simpa [hs] using hhead

theorem ne_of_class {p : Char → Bool} {c d : Char} (hc : p c = true) (hd : p d = false) : c ≠ d := by
  rintro rfl
  rw [hd] at hc
  cases hc

theorem isWordStart_of_isDigit {c : Char} (h : c.isDigit = true) : isWordStart c = false := by
  have hbounds : 48 ≤ c.toNat ∧ c.toNat ≤ 57 := by
    simpa [Char.isDigit, UInt32.le_iff_toNat_le] using h
  have hall : ∀ n : Fin 10, isWordStart (Char.ofNat (48 + n.val)) = false := by decide
  have hc := hall ⟨c.toNat - 48, by omega⟩
  rwa [Nat.add_sub_cancel' hbounds.1, Char.ofNat_toNat] at hc

/-- Where a word starts, nothing is looked at but the longest word there. -/
theorem next_of_isWordStart {c : Char} (hc : isWordStart c = true) (afterDot : Bool)
    {tail rest : List Char} (htail : tail.all isWordPart = true)
    (hrest : rest.head?.any isWordPart = false) :
    next afterDot c (tail ++ rest) =
      if c :: tail = ['J', 'S', 'O', 'N'] ∧ ¬afterDot then
        match afterMember (member false) rest, afterMember (member true) rest with
        | some after, _ => (.json false, after)
        | none, some after => (.json true, after)
        | none, none => (.word afterDot (c :: tail), rest)
      else (.word afterDot (c :: tail), rest) := by
  have hdouble : ¬(c = '"' ∨ c = '\x60') := by
    rintro (h | h)
    · exact ne_of_class hc (by decide) h
    · exact ne_of_class hc (by decide) h
  have hsingle : c ≠ '\'' := ne_of_class hc (by decide)
  simp only [next, if_neg hdouble, if_neg hsingle, if_pos hc, takeWhile_append_stop htail hrest,
    dropWhile_append_stop htail hrest]
  rfl

/-- Where a word starts, the first piece is the word or a function of `JSON`. -/
theorem leads_next_of_isWordStart (afterDot : Bool) {c : Char} (hc : isWordStart c = true)
    (rest : List Char) :
    Leads afterDot (c :: rest) (next afterDot c rest).1 (next afterDot c rest).2 := by
  have htail : (rest.takeWhile isWordPart).all isWordPart = true := List.all_takeWhile
  have hrest := head_dropWhile isWordPart rest
  have hsplit := List.takeWhile_append_dropWhile (p := isWordPart) (l := rest)
  have hnext := next_of_isWordStart hc afterDot htail hrest
  rw [hsplit] at hnext
  have hword (hjson : c :: rest.takeWhile isWordPart = ['J', 'S', 'O', 'N'] → afterDot = false →
      ∀ writing, afterMember (member writing) (rest.dropWhile isWordPart) = none) :
      Leads afterDot (c :: rest) (.word afterDot (c :: rest.takeWhile isWordPart))
        (rest.dropWhile isWordPart) := by
    have hleads := Leads.word hc htail hrest hjson
    rwa [hsplit] at hleads
  rw [hnext]
  split
  · -- the word is `JSON` and no member, so one of its functions may be named here
    rename_i hjson
    have hnamed (writing : Bool) {after : List Char}
        (h : afterMember (member writing) (rest.dropWhile isWordPart) = some after) :
        Leads afterDot (c :: rest) (.json writing) after := by
      have htext : c :: rest = ['J', 'S', 'O', 'N'] ++ (member writing ++ after) := by
        rw [append_of_afterMember h, ← hjson.1, List.cons_append, hsplit]
      rw [htext]
      exact .json writing (by simpa using hjson.2) (head_of_afterMember h)
    split
    · rename_i after h
      exact hnamed false h
    · rename_i after _ h
      exact hnamed true h
    · rename_i hparse hwrite
      refine hword fun _ _ writing => ?_
      cases writing
      · exact hparse
      · exact hwrite
  · rename_i hjson
    exact hword fun hname hdot => absurd ⟨hname, by simp [hdot]⟩ hjson

/-- The first piece of a text is the one that `next` finds. -/
theorem leads_next (afterDot : Bool) (c : Char) (rest : List Char) :
    Leads afterDot (c :: rest) (next afterDot c rest).1 (next afterDot c rest).2 := by
  by_cases hstart : isWordStart c = true
  · exact leads_next_of_isWordStart afterDot hstart rest
  unfold next
  split
  · rename_i h
    exact .literal rest h
  rename_i hdouble
  split
  · subst c
    exact .single rest
  rename_i hsingle
  have hquote : isQuote c = false := by
    simp only [not_or] at hdouble
    simp [isQuote, hdouble, hsingle]
  split
  · rename_i hdigit
    have hleads := @Leads.number afterDot c (rest.takeWhile isNumberPart)
      (rest.dropWhile isNumberPart) hdigit List.all_takeWhile (head_dropWhile isNumberPart rest)
    rwa [List.takeWhile_append_dropWhile] at hleads
  rename_i hdigit
  split
  · exact .remark _
  · exact .block _
  · exact .strict false _
  · exact .strict true _
  · exact .objectOpen _
  · exact .brace _
  · rename_i hbrace hremark hblock hequal hunequal hobject
    -- no longer piece begins here, or one of the cases above would have found it
    refine .other ⟨hquote, by simpa using hstart, by simpa using hdigit, ?_, ?_, ?_, ?_⟩
    · exact hbrace
    · rintro rfl
      constructor
      · intro h
        obtain ⟨tail, rfl⟩ := List.head?_eq_some_iff.1 h
        exact hremark tail rfl rfl
      · intro h
        obtain ⟨tail, rfl⟩ := List.head?_eq_some_iff.1 h
        exact hblock tail rfl rfl
    · rintro rfl h
      obtain ⟨tail, rfl⟩ := List.head?_eq_some_iff.1 h
      exact hobject tail rfl rfl
    · rintro (rfl | rfl) more rfl
      · exact hequal more rfl rfl
      · exact hunequal more rfl rfl

/-- `next` finds the first piece of a text. -/
theorem Leads.next_eq {afterDot : Bool} {c : Char} {s rest : List Char} {piece : Piece}
    (h : Leads afterDot (c :: s) piece rest) : next afterDot c s = (piece, rest) := by
  generalize htext : c :: s = text at h
  cases h with
  | literal inside hquote =>
    obtain ⟨rfl, rfl⟩ := List.cons.inj htext
    simp [next, hquote]
  | @word d tail _ hstart htail hrest hjson =>
    obtain ⟨rfl, rfl⟩ := List.cons.inj htext
    rw [next_of_isWordStart hstart afterDot htail hrest]
    split
    · rename_i hname
      rw [hjson hname.1 (by simpa using hname.2) false, hjson hname.1 (by simpa using hname.2) true]
    · rfl
  | json writing hdot hrest =>
    obtain ⟨rfl, rfl⟩ := List.cons.inj htext
    -- the word in front of a member of `JSON` is looked at first
    have hmember : (member writing ++ rest).head?.any isWordPart = false := by cases writing <;> rfl
    have hnext := @next_of_isWordStart 'J' rfl afterDot ['S', 'O', 'N'] _ rfl hmember
    rw [if_pos ⟨rfl, by simp [hdot]⟩] at hnext
    refine hnext.trans ?_
    cases writing with
    | false => rw [afterMember_append hrest]
    | true => rw [afterMember_of_ne Bool.false_ne_true, afterMember_append hrest]
  | @number d tail _ hdigit htail hrest =>
    obtain ⟨rfl, rfl⟩ := List.cons.inj htext
    have hstart := isWordStart_of_isDigit hdigit
    have hdouble : ¬(c = '"' ∨ c = '\x60') := by
      rintro (h | h)
      · exact ne_of_class hdigit (by decide) h
      · exact ne_of_class hdigit (by decide) h
    have hsingle : c ≠ '\'' := ne_of_class hdigit (by decide)
    simp only [next, if_neg hdouble, if_neg hsingle, hstart, Bool.false_eq_true, if_false,
      if_pos hdigit, takeWhile_append_stop htail hrest, dropWhile_append_stop htail hrest]
  | other halone =>
    obtain ⟨rfl, rfl⟩ := List.cons.inj htext
    obtain ⟨hquote, hstart, hdigit, hbrace, hslash, hhash, hequals⟩ := halone
    simp only [isQuote, Bool.or_eq_false_iff, beq_eq_false_iff_ne] at hquote
    simp only [next, hquote, or_self, if_false, hstart, hdigit, Bool.false_eq_true]
    split
    · exact absurd rfl (hslash rfl).1
    · exact absurd rfl (hslash rfl).2
    · exact absurd rfl (hequals (.inl rfl) _)
    · exact absurd rfl (hequals (.inr rfl) _)
    · exact absurd rfl (hhash rfl)
    · exact absurd rfl hbrace
    · rfl
  | strict negated rest =>
    obtain ⟨rfl, rfl⟩ := List.cons.inj htext
    cases negated <;> rfl
  | _ =>
    obtain ⟨rfl, rfl⟩ := List.cons.inj htext
    rfl

/-- The pieces of a text of which the first one is known. -/
theorem Leads.cutFrom_eq {afterDot : Bool} {s rest : List Char} {piece : Piece}
    (h : Leads afterDot s piece rest) :
    cutFrom afterDot s = piece :: cutFrom (piece == .other '.') rest := by
  obtain ⟨c, tail, rfl⟩ : ∃ c tail, s = c :: tail := by cases h <;> exact ⟨_, _, rfl⟩
  rw [cutFrom, h.next_eq]

end Rulebook.Surface
