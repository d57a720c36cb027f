import Rulebook.Compilation
import Rulebook.Proofs.Script.Boundary

/-!
# Script literals

The document stands in a script as a literal, which is written in two passes: the text is quoted as
JSON, and then the escapes that scripts do not know are spelled as code points.

* `respell_escapeChar`: the second pass never takes an escape of the first one apart.
* `token_literal`: the lexer reads the literal as one token and finds the text in it.
* `literal_spells`: what a literal looks like, and that it says its text and no other.
-/

namespace Rulebook.Compilation

open Script

/-- The form of a character inside a script literal. -/
def literalChar (c : Char) : List Char :=
  if c = '\x08' then "\\u0008".toList
  else if c = '\x0c' then "\\u000C".toList
  else Json.escapeChar c

/-- The characters that a literal does not hold as they are. -/
def isSpecial (c : Char) : Bool := c.toNat < 32 || c == '"' || c == '\\'

theorem isSpecial_eq_false {c : Char} :
    isSpecial c = false ↔ 32 ≤ c.toNat ∧ c ≠ '"' ∧ c ≠ '\\' := by
  simp [isSpecial, and_assoc]

theorem literalChar_of_not_isSpecial {c : Char} (h : isSpecial c = false) :
    literalChar c = [c] := by
  obtain ⟨hspace, hquote, hbackslash⟩ := isSpecial_eq_false.1 h
  have hne (d : Char) (hd : d.toNat < 32) : c ≠ d := by
    rintro rfl
    omega
  rw [literalChar, if_neg (hne _ (by decide)), if_neg (hne _ (by decide))]
  unfold Json.escapeChar
  split
  · exact absurd rfl hquote
  · exact absurd rfl hbackslash
  · exact absurd rfl (hne _ (by decide))
  · exact absurd rfl (hne _ (by decide))
  · exact absurd rfl (hne _ (by decide))
  · exact absurd rfl (hne _ (by decide))
  · exact absurd rfl (hne _ (by decide))
  · exact if_neg (by omega)

/-! ### The second pass -/

theorem respell_cons {c : Char} (h : c ≠ '\\') (rest : List Char) :
    respell (c :: rest) = c :: respell rest := by
  rw [respell]
  all_goals
    intros
    exact absurd ‹_› h

/-- The second pass meets the escape of a character as a whole. -/
theorem respell_escapeChar (c : Char) (rest : List Char) :
    respell (Json.escapeChar c ++ rest) = literalChar c ++ respell rest := by
  have digit : ∀ n < 16, Nat.digitChar n ≠ '\\' := by decide
  by_cases hb : c = '\x08'
  · subst hb
    rfl
  by_cases hf : c = '\x0c'
  · subst hf
    rfl
  rw [literalChar, if_neg hb, if_neg hf]
  unfold Json.escapeChar
  split
  · rfl
  · rfl
  · rfl
  · rfl
  · rfl
  · exact absurd rfl hb
  · exact absurd rfl hf
  · rename_i hbackslash _ _ _ _ _
    split
    -- a code point takes six characters, of which only the first is a backslash
    · have high := respell_cons (digit (c.toNat / 16) (by omega))
      have low := respell_cons (digit (c.toNat % 16) (by omega))
      simp [respell, high, low]
    · exact respell_cons hbackslash rest

theorem toList_literal (text : String) :
    (literal text).toList = '"' :: text.toList.flatMap literalChar ++ ['"'] := by
  have inside (s : List Char) :
      respell (s.flatMap Json.escapeChar ++ ['"']) = s.flatMap literalChar ++ ['"'] := by
    induction s with
    | nil => rfl
    | cons c s ih =>
      rw [List.flatMap_cons, List.append_assoc, respell_escapeChar, ih, List.flatMap_cons,
        List.append_assoc]
  rw [literal, Json.quote, String.toList_ofList, String.toList_ofList, List.cons_append,
    respell_cons (by decide), inside]
  rfl

/-! ### What a literal says -/

/-- `Spells written c` says that inside a script literal `written` stands for the character `c`. -/
inductive Spells : List Char → Char → Prop where
  | itself {c : Char} (plain : isSpecial c = false) : Spells [c] c
  | quote : Spells ['\\', '"'] '"'
  | backslash : Spells ['\\', '\\'] '\\'
  | lineFeed : Spells ['\\', 'n'] '\n'
  | carriageReturn : Spells ['\\', 'r'] '\r'
  | tab : Spells ['\\', 't'] '\t'
  /-- Four hexadecimal digits. -/
  | code {a b c d : Char} {n : Nat} (digits : Json.hexWord? a b c d = some n)
    (valid : n.isValidChar) : Spells ['\\', 'u', a, b, c, d] (Char.ofNat n)

/-- `Spelled inside text` says that between the quotes of a script literal `inside` stands for
`text`. -/
inductive Spelled : List Char → List Char → Prop where
  | nil : Spelled [] []
  | cons {written inside : List Char} {c : Char} {text : List Char} (first : Spells written c)
    (rest : Spelled inside text) : Spelled (written ++ inside) (c :: text)

/-- A hexadecimal digit of JSON is one of scripts, and no sign of a literal. -/
theorem hexDigit?_eq_some {c : Char} {v : Nat} (h : Json.hexDigit? c = some v) :
    Lexer.isHexDigit c = true ∧ Lexer.hexValue c = v ∧ 32 ≤ c.toNat ∧ c ≠ '"' ∧ c ≠ '\\' := by
  have small : c.toNat < 128 := by
    unfold Json.hexDigit? at h
    simp only [Char.isDigit, Char.le_def, UInt32.le_iff_toNat_le, ge_iff_le, Bool.and_eq_true, decide_eq_true_eq] at h
    split at h
    · have : c.val.toNat ≤ 57 := by simp_all
      exact Nat.lt_of_le_of_lt this (by decide)
    split at h
    · have : c.val.toNat ≤ 102 := by simp_all
      exact Nat.lt_of_le_of_lt this (by decide)
    split at h
    · have : c.val.toNat ≤ 70 := by simp_all
      exact Nat.lt_of_le_of_lt this (by decide)
    · cases h
  have known : ∀ n < 128, ∀ v ∈ Json.hexDigit? (Char.ofNat n),
      Lexer.isHexDigit (Char.ofNat n) = true ∧ Lexer.hexValue (Char.ofNat n) = v ∧
        32 ≤ (Char.ofNat n).toNat ∧ Char.ofNat n ≠ '"' ∧ Char.ofNat n ≠ '\\' := by decide
  have := known c.toNat small v
  rw [Char.ofNat_toNat] at this
  exact this h

theorem hexWord?_eq_some {a b c d : Char} {n : Nat} (h : Json.hexWord? a b c d = some n) :
    ∃ w x y z, Json.hexDigit? a = some w ∧ Json.hexDigit? b = some x ∧ Json.hexDigit? c = some y ∧
      Json.hexDigit? d = some z ∧ n = ((w * 16 + x) * 16 + y) * 16 + z := by
  simp only [Json.hexWord?, Option.bind_eq_bind, Option.bind_eq_some_iff] at h
  obtain ⟨w, hw, x, hx, y, hy, z, hz, hn⟩ := h
  exact ⟨w, x, y, z, hw, hx, hy, hz, (Option.some.inj hn).symm⟩
theorem spells_literalChar (c : Char) : Spells (literalChar c) c := by
  by_cases hspecial : isSpecial c = false
  · rw [literalChar_of_not_isSpecial hspecial]
    exact .itself hspecial
  unfold literalChar
  split
  · subst c
    exact .code (n := 8) (by decide) (by decide)
  split
  · subst c
    exact .code (n := 12) (by decide) (by decide)
  unfold Json.escapeChar
  split
  · exact .quote
  · exact .backslash
  · exact .lineFeed
  · exact .carriageReturn
  · exact .tab
  · contradiction
  · contradiction
  · rename_i hquote hbackslash _ _ _ _ _
    have digits : ∀ n < 32, Json.hexWord? '0' '0' (Nat.digitChar (n / 16))
        (Nat.digitChar (n % 16)) = some n := by decide
    by_cases hsmall : c.toNat < 32
    · rw [if_pos hsmall]
      have := Spells.code (digits _ hsmall) (.inl (by omega))
      rwa [Char.ofNat_toNat] at this
    · exact absurd (isSpecial_eq_false.2 ⟨by omega, hquote, hbackslash⟩) hspecial

theorem spelled_flatMap (text : List Char) : Spelled (text.flatMap literalChar) text := by
  induction text with
  | nil => exact .nil
  | cons c text ih => exact .cons (spells_literalChar c) ih

theorem Spells.exists_cons {written : List Char} {c : Char} (h : Spells written c) :
    ∃ d rest, written = d :: rest ∧ d ≠ '"' := by
  cases h with
  | itself plain => exact ⟨c, [], rfl, (isSpecial_eq_false.1 plain).2.1⟩
  | _ => exact ⟨'\\', _, rfl, by decide⟩

/-- What stands for a character is not the beginning of what stands for another. -/
theorem Spells.eq_of_append_eq {first second after beyond : List Char} {c d : Char}
    (h : Spells first c) (h' : Spells second d) (heq : first ++ after = second ++ beyond) :
    c = d ∧ after = beyond := by
  cases h <;> cases h' <;> grind [isSpecial]

theorem Spelled.unique {inside text other : List Char} (h : Spelled inside text)
    (h' : Spelled inside other) : text = other := by
  induction h generalizing other with
  | nil =>
    generalize hempty : ([] : List Char) = inside at h'
    cases h' with
    | nil => rfl
    | cons first =>
      obtain ⟨d, rest, rfl, -⟩ := first.exists_cons
      cases hempty
  | @cons written inside c text first rest ih =>
    generalize hinside : written ++ inside = whole at h'
    cases h' with
    | nil =>
      obtain ⟨d, rest, rfl, -⟩ := first.exists_cons
      cases hinside
    | cons first' rest' =>
      obtain ⟨rfl, rfl⟩ := first.eq_of_append_eq first' hinside
      rw [ih rest']

/-- No control character of JSON stands in a literal as it is. -/
theorem Spelled.space_le {inside text : List Char} (h : Spelled inside text) :
    ∀ c ∈ inside, 32 ≤ c.toNat := by
  induction h with
  | nil => simp
  | @cons written inside c text first _ ih =>
    intro d hd
    rcases List.mem_append.1 hd with hd | hd
    · cases first with
      | itself plain =>
        rw [List.mem_singleton.1 hd]
        exact (isSpecial_eq_false.1 plain).1
      | code digits =>
        obtain ⟨_, _, _, _, h₁, h₂, h₃, h₄, -⟩ := hexWord?_eq_some digits
        simp only [List.mem_cons, List.not_mem_nil, or_false] at hd
        rcases hd with rfl | rfl | rfl | rfl | rfl | rfl
        · decide
        · decide
        · exact (hexDigit?_eq_some h₁).2.2.1
        · exact (hexDigit?_eq_some h₂).2.2.1
        · exact (hexDigit?_eq_some h₃).2.2.1
        · exact (hexDigit?_eq_some h₄).2.2.1
      | _ =>
        simp only [List.mem_cons, List.not_mem_nil, or_false] at hd
        rcases hd with rfl | rfl <;> decide
    · exact ih d hd

/-- The first quote that no backslash takes along is the closing one. -/
theorem Spelled.splitString {inside text : List Char} (h : Spelled inside text)
    (rest : List Char) : Json.splitString (inside ++ '"' :: rest) = some (inside, rest) := by
  induction h with
  | nil => rfl
  | @cons written inside c text first _ ih =>
    rw [List.append_assoc]
    cases first with
    | itself plain =>
      obtain ⟨-, hquote, hbackslash⟩ := isSpecial_eq_false.1 plain
      simp [Json.splitString, hbackslash, ih]
    | code digits =>
      obtain ⟨_, _, _, _, h₁, h₂, h₃, h₄, -⟩ := hexWord?_eq_some digits
      simp [Json.splitString, hexDigit?_eq_some h₁, hexDigit?_eq_some h₂, hexDigit?_eq_some h₃,
        hexDigit?_eq_some h₄, ih]
    | _ => simp [Json.splitString, ih]

/-! ### What the lexer of scripts reads -/

theorem Spells.literal {written : List Char} {c : Char} (h : Spells written c) (fuel : Nat)
    (rest : List Char) : Lexer.literal '"' (fuel + 1) (written ++ rest) =
      Lexer.prepend c (Lexer.literal '"' fuel rest) := by
  cases h with
  | itself plain =>
    obtain ⟨hspace, hquote, hbackslash⟩ := isSpecial_eq_false.1 plain
    refine Lexer.literal_cons _ _ _ hbackslash hquote ?_
    rintro rfl
    exact absurd hspace (by decide)
  | @code a b c d n digits valid =>
    obtain ⟨w, x, y, z, h₁, h₂, h₃, h₄, rfl⟩ := hexWord?_eq_some digits
    obtain ⟨ha, ha', -⟩ := hexDigit?_eq_some h₁
    obtain ⟨hb, hb', -⟩ := hexDigit?_eq_some h₂
    obtain ⟨hc, hc', -⟩ := hexDigit?_eq_some h₃
    obtain ⟨hd, hd', -⟩ := hexDigit?_eq_some h₄
    have hvalue : Lexer.valueOf 16 [a, b, c, d] = ((w * 16 + x) * 16 + y) * 16 + z := by
      simp only [Lexer.valueOf, List.foldl_cons, List.foldl_nil, ha', hb', hc', hd']
      omega
    have hcoded : Lexer.escaped '"' ('u' :: a :: b :: c :: d :: rest) =
        some (Char.ofNat (((w * 16 + x) * 16 + y) * 16 + z), rest) := by
      show Lexer.coded 4 (a :: b :: c :: d :: rest) = _
      simp [Lexer.coded, ha, hb, hc, hd, hvalue, Lexer.charOf?, valid]
    show Lexer.literal '"' (fuel + 1) ('\\' :: 'u' :: a :: b :: c :: d :: rest) = _
    rw [Lexer.literal_escape _ _ _ (by simp), hcoded]
  | _ => rfl

theorem Spelled.literal {inside text : List Char} (h : Spelled inside text) (fuel : Nat)
    {rest : List Char} (hrest : rest.head? ≠ some '"') :
    Lexer.literal '"' (fuel + text.length + 1) (inside ++ '"' :: rest) = .ok (text, rest) := by
  induction h with
  | nil => exact Lexer.literal_close _ _ _ (by decide) hrest
  | cons first _ ih =>
    rw [List.append_assoc, List.length_cons, ← Nat.add_assoc, first.literal, ih]
    rfl

theorem Spelled.length_le {inside text : List Char} (h : Spelled inside text) :
    text.length ≤ inside.length := by
  induction h with
  | nil => exact Nat.le_refl _
  | cons first _ ih =>
    obtain ⟨d, rest, rfl, -⟩ := first.exists_cons
    simp
    omega

/-- The lexer reads a literal as one token, unless another quote follows. -/
theorem Spelled.token {inside text : List Char} (h : Spelled inside text)
    (evaluates operand : Bool) {rest : List Char} (hrest : rest.head? ≠ some '"') :
    Lexer.token evaluates operand ('"' :: (inside ++ '"' :: rest)) =
      .ok (.text (String.ofList text), rest) := by
  obtain ⟨fuel, hfuel⟩ : ∃ fuel, (inside ++ '"' :: rest).length = fuel + text.length + 1 := by
    refine ⟨inside.length - text.length + rest.length, ?_⟩
    have := h.length_le
    simp
    omega
  rw [Lexer.token_text, hfuel, h.literal fuel hrest]
  rfl

/-- A literal is written between two quotes with the escapes of scripts and without control
characters, its first quote that no backslash takes along is the last one, and it says its text and
no other, also to the lexer. -/
theorem literal_spells (text : String) :
    ∃ inside, (literal text).toList = '"' :: inside ++ ['"'] ∧
      Spelled inside text.toList ∧
      (∀ other, Spelled inside other → other = text.toList) ∧
      (∀ c ∈ inside, 32 ≤ c.toNat) ∧
      (∀ rest, Json.splitString (inside ++ '"' :: rest) = some (inside, rest)) ∧
      (∀ evaluates operand rest, rest.head? ≠ some '"' →
        Lexer.token evaluates operand ((literal text).toList ++ rest) = .ok (.text text, rest)) ∧
      ∀ other, literal other = literal text → other = text := by
  have hspelled := spelled_flatMap text.toList
  refine ⟨text.toList.flatMap literalChar, toList_literal text, hspelled, ?_, hspelled.space_le,
    hspelled.splitString, ?_, ?_⟩
  · intro other h
    exact h.unique hspelled
  · intro evaluates operand rest hrest
    have := hspelled.token evaluates operand hrest
    rw [String.ofList_toList] at this
    simpa [toList_literal] using this
  · intro other h
    have heq := congrArg String.toList h
    rw [toList_literal, toList_literal, List.append_left_inj] at heq
    have hinside := spelled_flatMap other.toList
    rw [(List.cons.inj heq).2] at hinside
    exact String.toList_inj.1 (hinside.unique hspelled)

end Rulebook.Compilation
