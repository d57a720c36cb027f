import Rulebook.Proofs.Script.Boundary
import Rulebook.Proofs.Surface.Images

/-!
# What a requoted literal says

The inside of a literal is read glyph by glyph: a character stands by itself, or a backslash takes it
along. Requoting changes only how quotes are written (`meaning_requoteBody`), so every table of escapes
that knows both escaped quotes finds the same text before and after it: `EscapeTable.decode_requoteBody`.
The lexer of scripts, which knows no escaped single quote, reads that text: `token_requoteBody`.
-/

namespace Rulebook.Surface

open Script

/-- A character between the quotes of a literal, by itself or taken along by a backslash. -/
inductive Glyph where
  | plain (c : Char)
  | escaped (c : Char)
  deriving Repr, DecidableEq

/-- The glyphs of the inside of a literal. A backslash at its end stands by itself. -/
def glyphs : List Char → List Glyph
  | [] => []
  | ['\\'] => [.plain '\\']
  | '\\' :: c :: rest => .escaped c :: glyphs rest
  | c :: rest => .plain c :: glyphs rest

namespace Glyph

/-- The glyph, with an escaped quote taken for the quote. -/
def meaning : Glyph → Glyph
  | escaped '\'' => plain '\''
  | escaped '"' => plain '"'
  | glyph => glyph

/-- The hexadecimal digit that the glyph is. -/
def digit? : Glyph → Option Char
  | plain c => if Lexer.isHexDigit c then some c else none
  | escaped _ => none

end Glyph

/-- What escapes stand for, among them the two escaped quotes. An escape can take hexadecimal digits
along, which stand by themselves. -/
structure EscapeTable where
  /-- The number of digits that belong to an escape. -/
  digits : Char → Nat
  /-- The text that an escape with its digits stands for, if there is such an escape. -/
  text : Char → List Char → Option (List Char)
  digits_single : digits '\'' = 0 := by rfl
  digits_double : digits '"' = 0 := by rfl
  text_single : text '\'' [] = some ['\''] := by rfl
  text_double : text '"' [] = some ['"'] := by rfl

namespace EscapeTable

/-- The text that glyphs stand for, if all of them stand for something. -/
def decode (table : EscapeTable) : List Glyph → Option (List Char)
  | [] => some []
  | .plain c :: rest => (decode table rest).map (c :: ·)
  | .escaped c :: rest =>
    let digits := (rest.take (table.digits c)).filterMap Glyph.digit?
    if digits.length = table.digits c then
      (table.text c digits).bind fun text =>
        (decode table (rest.drop (table.digits c))).map (text ++ ·)
    else none
termination_by glyphs => glyphs.length
decreasing_by
  · exact Nat.lt_succ_self _
  · rw [List.length_cons, List.length_drop]
    omega

/-- The escapes of scripts, and the escaped single quote. -/
def script : EscapeTable where
  digits c := (Lexer.codeLength? c).getD 0
  text c digits :=
    match Lexer.codeLength? c with
    | some _ => (Lexer.charOf? (Lexer.valueOf 16 digits)).map ([·])
    | none => ((Lexer.shortEscape? '"' c).or (Lexer.shortEscape? '\'' c)).map ([·])

end EscapeTable

/-! ### Glyphs -/

theorem glyphs_cons {c : Char} (h : c ≠ '\\') (rest : List Char) :
    glyphs (c :: rest) = .plain c :: glyphs rest := by
  rw [glyphs]
  all_goals
    intros
    exact absurd ‹_› h

/-- Requoting writes every glyph in a form of the same meaning. -/
theorem meaning_requoteBody (body : List Char) :
    (glyphs (requoteBody body)).map Glyph.meaning = (glyphs body).map Glyph.meaning := by
  fun_induction requoteBody body with
  | case1 => rfl
  | case2 => rfl
  | case3 rest ih =>
    rw [glyphs_cons (by decide), glyphs, List.map_cons, List.map_cons, ih]
    rfl
  | case4 c rest hc ih => rw [glyphs, glyphs, List.map_cons, List.map_cons, ih]
  | case5 rest ih =>
    rw [glyphs, glyphs_cons (by decide), List.map_cons, List.map_cons, ih]
    rfl
  | case6 c rest hlast hescape hpair hquote ih =>
    have hne := ne_backslash hlast hpair
    rw [glyphs_cons hne, glyphs_cons hne, List.map_cons, List.map_cons, ih]

/-- After requoting no single quote has a backslash, and every double quote has one. -/
theorem quotes_requoteBody (body : List Char) :
    .escaped '\'' ∉ glyphs (requoteBody body) ∧ .plain '"' ∉ glyphs (requoteBody body) := by
  fun_induction requoteBody body with
  | case1 => simp [glyphs]
  | case2 => simp [glyphs]
  | case3 rest ih =>
    rw [glyphs_cons (by decide)]
    simpa using ih
  | case4 c rest hc ih =>
    rw [glyphs]
    simpa [Ne.symm hc] using ih
  | case5 rest ih =>
    rw [glyphs]
    simpa using ih
  | case6 c rest hlast hescape hpair hquote ih =>
    rw [glyphs_cons (ne_backslash hlast hpair)]
    simpa [Ne.symm hquote] using ih

/-! ### Tables of escapes -/

namespace EscapeTable

variable (table : EscapeTable)

theorem decode_plain (c : Char) (rest : List Glyph) :
    table.decode (.plain c :: rest) = (table.decode rest).map (c :: ·) := by
  rw [decode]

theorem decode_escaped_single (rest : List Glyph) :
    table.decode (.escaped '\'' :: rest) = table.decode (.plain '\'' :: rest) := by
  rw [decode_plain, decode, table.digits_single]
  simp [table.text_single]

theorem decode_escaped_double (rest : List Glyph) :
    table.decode (.escaped '"' :: rest) = table.decode (.plain '"' :: rest) := by
  rw [decode_plain, decode, table.digits_double]
  simp [table.text_double]

/-- An escape that is no quote, with the digits that it takes along. -/
theorem decode_escaped (c : Char) (rest : List Glyph) :
    table.decode (.escaped c :: rest) =
      let digits := (rest.take (table.digits c)).filterMap Glyph.digit?
      if digits.length = table.digits c then
        (table.text c digits).bind fun text =>
          (table.decode (rest.drop (table.digits c))).map (text ++ ·)
      else none := by
  rw [decode]

/-- No quote is a digit, with a backslash or without. -/
theorem digit?_meaning (glyph : Glyph) : glyph.meaning.digit? = glyph.digit? := by
  unfold Glyph.meaning
  split <;> rfl

theorem filterMap_digit?_meaning (glyphs : List Glyph) :
    (glyphs.map Glyph.meaning).filterMap Glyph.digit? = glyphs.filterMap Glyph.digit? := by
  rw [List.filterMap_map]
  exact congrArg (List.filterMap · glyphs) (funext digit?_meaning)

/-- Only the meaning of the glyphs counts. -/
theorem decode_meaning (glyphs : List Glyph) :
    table.decode (glyphs.map Glyph.meaning) = table.decode glyphs := by
  -- an escape takes digits along, so the induction is on the number of glyphs
  induction hlength : glyphs.length using Nat.strongRecOn generalizing glyphs with
  | ind n ih =>
    subst hlength
    rcases glyphs with - | ⟨c | c, rest⟩
    · rfl
    · have hmeaning : (Glyph.plain c).meaning = .plain c := by
        rw [Glyph.meaning] <;> exact Glyph.noConfusion
      rw [List.map_cons, hmeaning, decode_plain, decode_plain, ih _ (by simp) _ rfl]
    by_cases hsingle : c = '\''
    · subst hsingle
      rw [decode_escaped_single, decode_plain, ← ih rest.length (by simp) rest rfl, ← decode_plain]
      rfl
    by_cases hdouble : c = '"'
    · subst hdouble
      rw [decode_escaped_double, decode_plain, ← ih rest.length (by simp) rest rfl, ← decode_plain]
      rfl
    · have hmeaning : (Glyph.escaped c).meaning = .escaped c := by
        rw [Glyph.meaning] <;> simp [hsingle, hdouble]
      have hshorter : (rest.drop (table.digits c)).length < (Glyph.escaped c :: rest).length := by
        rw [List.length_drop, List.length_cons]
        omega
      rw [List.map_cons, hmeaning, decode_escaped, decode_escaped, ← List.map_take,
        filterMap_digit?_meaning, ← List.map_drop, ih _ hshorter _ rfl]

/-- A literal says the same text before and after requoting. -/
theorem decode_requoteBody (body : List Char) :
    table.decode (glyphs (requoteBody body)) = table.decode (glyphs body) := by
  rw [← decode_meaning, meaning_requoteBody, decode_meaning]

end EscapeTable

/-! ### Closed literals -/

/-- A closed literal ends with its closing quote, and every backslash inside takes a character along. -/
theorem exists_body {s : List Char} (h : closesLiteral '\'' (splitLiteral '\'' s).1 = true) :
    ∃ body, (splitLiteral '\'' s).1 = body ++ ['\''] ∧ .plain '\\' ∉ glyphs body := by
  fun_induction splitLiteral '\'' s with
  | case1 => cases h
  | case2 => cases h
  | case3 c rest inside after heq ih =>
    rw [heq] at ih
    obtain ⟨body, hbody, hplain⟩ := ih h
    refine ⟨'\\' :: c :: body, by simpa using hbody, ?_⟩
    rw [glyphs]
    simpa using hplain
  | case4 rest hlast hpair => exact ⟨[], rfl, List.not_mem_nil⟩
  | case5 c rest hlast hpair hquote inside after heq ih =>
    have hne := ne_backslash hlast hpair
    rw [closesLiteral_cons _ hne, beq_eq_false_iff_ne.2 hquote, Bool.false_or] at h
    rw [heq] at ih
    obtain ⟨body, hbody, hplain⟩ := ih h
    refine ⟨c :: body, by simpa using hbody, ?_⟩
    rw [glyphs_cons hne]
    simpa [Ne.symm hne] using hplain

/-- Characters other than quotes stand by themselves after requoting if they did so before. -/
theorem plain_mem_of_requoteBody {c : Char} (hsingle : c ≠ '\'') (hdouble : c ≠ '"')
    {body : List Char} (h : .plain c ∈ glyphs (requoteBody body)) : .plain c ∈ glyphs body := by
  have hmeaning (c : Char) : (Glyph.plain c).meaning = .plain c := by
    rw [Glyph.meaning] <;> exact Glyph.noConfusion
  have hmem := List.mem_map_of_mem (f := Glyph.meaning) h
  rw [meaning_requoteBody, hmeaning] at hmem
  obtain ⟨glyph, hglyph, heq⟩ := List.mem_map.1 hmem
  have hself : glyph = .plain c := by
    unfold Glyph.meaning at heq
    split at heq
    · exact absurd (Glyph.plain.inj heq).symm hsingle
    · exact absurd (Glyph.plain.inj heq).symm hdouble
    · exact heq
  exact hself ▸ hglyph

theorem mem_of_plain_mem {c : Char} {s : List Char} (h : .plain c ∈ glyphs s) : c ∈ s := by
  fun_induction glyphs s with
  | case1 => exact absurd h List.not_mem_nil
  | case2 => simpa using h
  | case3 d rest ih =>
    have hrest : .plain c ∈ glyphs rest := by simpa using h
    exact .tail _ (.tail _ (ih hrest))
  | case4 d rest hlast hpair ih =>
    rcases List.mem_cons.1 h with heq | hrest
    · exact Glyph.plain.inj heq ▸ .head _
    · exact .tail _ (ih hrest)

/-! ### What the lexer of scripts reads -/

theorem exists_of_glyphs_eq_plain {s : List Char} {c : Char} {rest : List Glyph}
    (h : glyphs s = .plain c :: rest) : ∃ tail, s = c :: tail ∧ glyphs tail = rest := by
  fun_cases glyphs s with
  | case1 => cases h
  | case2 =>
    cases h
    exact ⟨[], rfl, rfl⟩
  | case3 d tail =>
    rw [glyphs] at h
    cases h
  | case4 d tail hlast hpair =>
    rw [glyphs_cons (ne_backslash hlast hpair)] at h
    cases h
    exact ⟨tail, rfl, rfl⟩

/-- Digits that glyphs begin with are the characters that the text begins with. -/
theorem exists_of_digits {n : Nat} {s : List Char} {digits : List Char}
    (hdigits : ((glyphs s).take n).filterMap Glyph.digit? = digits) (hlength : digits.length = n) :
    ∃ tail, s = digits ++ tail ∧ digits.all Lexer.isHexDigit = true ∧
      glyphs tail = (glyphs s).drop n := by
  induction n generalizing s digits with
  | zero =>
    obtain rfl := List.length_eq_zero_iff.1 hlength
    exact ⟨s, rfl, rfl, rfl⟩
  | succ n ih =>
    have hbound (glyphs : List Glyph) : ((glyphs.take n).filterMap Glyph.digit?).length ≤ n :=
      Nat.le_trans (List.length_filterMap_le _ _) (List.length_take_le _ _)
    cases hglyphs : glyphs s with
    | nil =>
      rw [hglyphs] at hdigits
      subst hdigits
      cases hlength
    | cons glyph rest =>
      rw [hglyphs, List.take_succ_cons, List.filterMap_cons] at hdigits
      cases hdigit : glyph.digit? with
      | none =>
        rw [hdigit] at hdigits
        -- a glyph that is no digit leaves too few of them
        have := hbound rest
        dsimp only at hdigits
        rw [hdigits] at this
        omega
      | some d =>
        rw [hdigit] at hdigits
        dsimp only at hdigits
        subst hdigits
        obtain ⟨c, rfl, hhex, rfl⟩ : ∃ c, glyph = .plain c ∧ Lexer.isHexDigit c = true ∧ c = d := by
          cases glyph with
          | plain c =>
            simp only [Glyph.digit?, Option.ite_none_right_eq_some, Option.some.injEq] at hdigit
            exact ⟨c, rfl, hdigit⟩
          | escaped c => cases hdigit
        obtain ⟨tail, rfl, rfl⟩ := exists_of_glyphs_eq_plain hglyphs
        obtain ⟨more, htail, hall, hdrop⟩ := ih rfl (by simpa using hlength)
        refine ⟨more, ?_, ?_, hdrop⟩
        · rw [List.cons_append, ← htail]
        · rw [List.all_cons, hhex, hall]
          rfl

/-- The escapes of scripts are the ones that the lexer knows. -/
theorem escaped_of_decode {c : Char} {tail text : List Char} (hsingle : c ≠ '\'')
    (h : EscapeTable.script.decode (.escaped c :: glyphs tail) = some text) :
    c ≠ '\n' ∧ ∃ d tail' text', text = d :: text' ∧ tail'.length ≤ tail.length ∧
      (∀ glyph ∈ glyphs tail', glyph ∈ glyphs tail) ∧
      EscapeTable.script.decode (glyphs tail') = some text' ∧
      ∀ rest, Lexer.escaped '"' (c :: (tail ++ rest)) = some (d, tail' ++ rest) := by
  rw [EscapeTable.decode_escaped] at h
  obtain ⟨hlength, h⟩ := Option.ite_none_right_eq_some.1 h
  obtain ⟨found, hfound, h⟩ := Option.bind_eq_some_iff.1 h
  obtain ⟨text', htext, rfl⟩ := Option.map_eq_some_iff.1 h
  obtain ⟨tail', htail, hhex, hglyphs⟩ := exists_of_digits rfl hlength
  generalize List.filterMap Glyph.digit? _ = digits at *
  rw [← hglyphs] at htext
  have hmem : ∀ glyph ∈ glyphs tail', glyph ∈ glyphs tail := by
    rw [hglyphs]
    exact fun _ => List.mem_of_mem_drop
  subst htail
  -- an escape with a code takes its digits, a short one nothing
  cases hcode : Lexer.codeLength? c with
  | some count =>
    have hcount : EscapeTable.script.digits c = count := by simp [EscapeTable.script, hcode]
    simp only [EscapeTable.script, hcode] at hfound
    obtain ⟨d, hd, rfl⟩ := Option.map_eq_some_iff.1 hfound
    refine ⟨?_, d, tail', text', rfl, by simp, hmem, htext, fun rest => ?_⟩
    · rintro rfl
      cases hcode
    · rw [hcount] at hlength
      subst hlength
      rw [Lexer.escaped_cons, hcode]
      simp [Lexer.coded, hhex, hd]
  | none =>
    have hcount : EscapeTable.script.digits c = 0 := by simp [EscapeTable.script, hcode]
    rw [hcount] at hlength
    obtain rfl := List.length_eq_zero_iff.1 hlength
    simp only [EscapeTable.script, hcode] at hfound
    obtain ⟨d, hd, rfl⟩ := Option.map_eq_some_iff.1 hfound
    have hshort : Lexer.shortEscape? '"' c = some d := by
      revert hd
      unfold Lexer.shortEscape?
      split <;> simp [hsingle]
    refine ⟨?_, d, tail', text', rfl, by simp, hmem, htext, fun rest => ?_⟩
    · rintro rfl
      cases hshort
    · rw [Lexer.escaped_cons, hcode, hshort]
      rfl

/-- The lexer reads a text between double quotes as what its glyphs stand for. -/
theorem literal_of_decode {s text rest : List Char}
    (h : EscapeTable.script.decode (glyphs s) = some text) (hsingle : .escaped '\'' ∉ glyphs s)
    (hdouble : .plain '"' ∉ glyphs s) (hbackslash : .plain '\\' ∉ glyphs s)
    (hline : .plain '\n' ∉ glyphs s) (hrest : rest.head? ≠ some '"') (fuel : Nat) :
    Lexer.literal '"' (fuel + s.length + 1) (s ++ '"' :: rest) = .ok (text, rest) := by
  induction hlength : s.length using Nat.strongRecOn generalizing s text fuel with
  | ind n ih =>
    subst hlength
    -- the induction goes along the glyphs, as an escape may take several characters
    fun_cases glyphs s with
    | case1 =>
      obtain rfl : [] = text := Option.some.inj (by rw [← h, glyphs, EscapeTable.decode])
      exact Lexer.literal_close _ _ _ (by decide) hrest
    | case2 => exact absurd (List.mem_singleton.2 rfl) hbackslash
    | case3 c tail =>
      rw [glyphs] at h hsingle hdouble hbackslash hline
      simp only [List.mem_cons, not_or, Glyph.escaped.injEq, reduceCtorEq,
        false_or] at hsingle hdouble hbackslash hline
      obtain ⟨hbreak, d, tail', text', rfl, hlength, hmem, htext, hescaped⟩ :=
        escaped_of_decode (Ne.symm hsingle.1) h
      have hread := ih tail'.length (by simp; omega) htext (fun h => hsingle.2 (hmem _ h))
        (fun h => hdouble (hmem _ h)) (fun h => hbackslash (hmem _ h)) (fun h => hline (hmem _ h))
        (fuel + 1 + (tail.length - tail'.length)) rfl
      have hfuel : fuel + ('\\' :: c :: tail).length =
          fuel + 1 + (tail.length - tail'.length) + tail'.length + 1 := by
        simp
        omega
      rw [hfuel, List.cons_append, List.cons_append, Lexer.literal_escape _ _ _ (by simpa using hbreak),
        hescaped]
      dsimp only
      rw [hread]
      rfl
    | case4 c tail hlast hpair =>
      have hne := ne_backslash hlast hpair
      rw [glyphs_cons hne] at h hsingle hdouble hbackslash hline
      simp only [List.mem_cons, not_or, Glyph.plain.injEq, reduceCtorEq,
        false_or] at hsingle hdouble hbackslash hline
      rw [EscapeTable.decode_plain] at h
      obtain ⟨text', htext, rfl⟩ := Option.map_eq_some_iff.1 h
      have hread := ih tail.length (by simp) htext hsingle hdouble.2 hbackslash.2 hline.2 fuel rfl
      have hfuel : fuel + (c :: tail).length = fuel + tail.length + 1 := rfl
      rw [hfuel, List.cons_append,
        Lexer.literal_cons _ _ _ hne (Ne.symm hdouble.1) (Ne.symm hline.1), hread]
      rfl

/-- The lexer reads a requoted literal as one token, whose text is what the literal says. -/
theorem token_requoteBody {inside text : List Char}
    (h : EscapeTable.script.decode (glyphs inside) = some text)
    (hbackslash : .plain '\\' ∉ glyphs inside) (hline : '\n' ∉ inside) (evaluates operand : Bool)
    {rest : List Char} (hrest : rest.head? ≠ some '"') :
    Lexer.token evaluates operand ('"' :: (requoteBody inside ++ '"' :: rest)) =
      .ok (.text (String.ofList text), rest) := by
  obtain ⟨hsingle, hdouble⟩ := quotes_requoteBody inside
  have hread := literal_of_decode (s := requoteBody inside)
    ((EscapeTable.script.decode_requoteBody inside).trans h) hsingle hdouble
    (fun h => hbackslash (plain_mem_of_requoteBody (by decide) (by decide) h))
    (fun h => hline (mem_of_plain_mem (plain_mem_of_requoteBody (by decide) (by decide) h)))
    hrest rest.length
  have hfuel : (requoteBody inside ++ '"' :: rest).length =
      rest.length + (requoteBody inside).length + 1 := by
    simp
    omega
  rw [Lexer.token_text, hfuel, hread]
  rfl

/-- **A requoted literal says what the literal said.** Of a single-quoted literal with its closing
quote, the double-quoted spelling is one literal, in front of any text. Every table of escapes finds
the same text in both, and no single quote has a backslash any more. So the lexer of scripts, which
does not know that escape, reads the text of the original, if that is on one line. -/
theorem requote_says_the_same {s : List Char}
    (h : closesLiteral '\'' (splitLiteral '\'' s).1 = true) :
    let original := '\'' :: (splitLiteral '\'' s).1
    let inside := literalBody original
    original = '\'' :: inside ++ ['\''] ∧ requote original = '"' :: requoteBody inside ++ ['"'] ∧
      (∀ rest, splitLiteral '"' (requoteBody inside ++ '"' :: rest) =
        (requoteBody inside ++ ['"'], rest)) ∧
      (∀ table : EscapeTable,
        table.decode (glyphs (requoteBody inside)) = table.decode (glyphs inside)) ∧
      .escaped '\'' ∉ glyphs (requoteBody inside) ∧
      ∀ text, EscapeTable.script.decode (glyphs inside) = some text → '\n' ∉ inside →
        ∀ evaluates operand rest, rest.head? ≠ some '"' →
          Lexer.token evaluates operand (requote original ++ rest) =
            .ok (.text (String.ofList text), rest) := by
  intro original inside
  obtain ⟨body, hbody, hbackslash⟩ := exists_body h
  have hinside : inside = body := by simp [inside, original, literalBody, hbody]
  have horiginal : original = '\'' :: inside ++ ['\''] := by
    rw [hinside]
    exact congrArg _ hbody
  refine ⟨horiginal, rfl, fun rest => ?_, fun table => table.decode_requoteBody inside,
    (quotes_requoteBody inside).1, fun text htext hline evaluates operand rest hrest => ?_⟩
  · have hcloses := closesLiteral_requoteBody h
    have hself := splitLiteral_append_of_self (splitLiteral_requoteBody inside)
      (.inl hcloses : _ ∨ rest = [])
    rwa [List.append_assoc] at hself
  · have htoken := token_requoteBody htext (hinside ▸ hbackslash) hline evaluates operand hrest
    have hspelling : requote original ++ rest = '"' :: (requoteBody inside ++ '"' :: rest) := by
      simp [requote, inside]
    rw [hspelling]
    exact htoken

/-- A literal with all kinds of quotes, which the lexer reads as what it says. -/
theorem requote_says_the_same_of_quotes :
    let s := "it\\'s \"so\"' + name".toList
    closesLiteral '\'' (splitLiteral '\'' s).1 = true ∧
      requote ('\'' :: (splitLiteral '\'' s).1) = "\"it's \\\"so\\\"\"".toList ∧
      Lexer.token false true ("\"it's \\\"so\\\"\"".toList ++ " + name".toList) =
        .ok (.text "it's \"so\"", " + name".toList) := by
  intro s
  have h : closesLiteral '\'' (splitLiteral '\'' s).1 = true := by decide
  have hrequote : requote ('\'' :: (splitLiteral '\'' s).1) = "\"it's \\\"so\\\"\"".toList := by decide
  have hglyphs : glyphs (literalBody ('\'' :: (splitLiteral '\'' s).1)) =
      "it".toList.map .plain ++ .escaped '\'' :: "s \"so\"".toList.map .plain := by decide
  have htext : EscapeTable.script.decode (glyphs (literalBody ('\'' :: (splitLiteral '\'' s).1))) =
      some "it's \"so\"".toList := by
    rw [hglyphs]
    simp [EscapeTable.decode_plain, EscapeTable.decode_escaped_single, EscapeTable.decode]
  have hline : '\n' ∉ literalBody ('\'' :: (splitLiteral '\'' s).1) := by decide
  have htoken := (requote_says_the_same h).2.2.2.2.2 _ htext hline false true " + name".toList
    (by decide)
  rw [hrequote] at htoken
  exact ⟨h, hrequote, htoken⟩

end Rulebook.Surface
