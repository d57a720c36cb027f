import Rulebook.Proofs.Script.Boundary

/-!
# Cutting a script piece by piece

`scan` repeats the step `scanStep` up to the end of a text. `Cuts` is a number of these steps, from
one rest of a text to a later one, with the tokens that they find.

* `scan_of_cuts`: the tokens of some steps come first among those of the text;
* `Cuts.beyond`: steps that lead to a boundary find the same whatever stands beyond it.
-/

namespace Rulebook.Script.Lexer

/-- The braces that are open after a token; `none` if the token closes an interpolation. -/
def bracesOf (braces : List Nat) (token : Token) : Option (List Nat) :=
  match token with
  | .piece _ true => some (0 :: braces)
  | token => bracesAfter braces token

/-- The place after the part of a text that comes before what is left of it. -/
def movedTo (position : Position) (s after : List Char) : Position :=
  position.afterAll (s.take (s.length - after.length))

/-- What the lexer remembers after a part of a text without tokens. -/
def Progress.past (progress : Progress) (s after : List Char) : Progress :=
  { progress with position := movedTo progress.position s after }

/-- What a step takes from a text that is not empty: the tokens that it finds, what it remembers and
what it leaves. -/
def scanStep (evaluates : Bool) (progress : Progress) (s : List Char) :
    Except SyntaxError (List (Token × Position) × Progress × List Char) :=
  let skipTo (after : List Char) :=
    .ok ([], progress.past s after, after)
  if s.head?.any Text.isBlank then skipTo (s.drop 1)
  else if s.take 2 = ['/', '/'] then skipTo (s.dropWhile (· ≠ '\n'))
  else if s.take 2 = ['/', '*'] then skipTo (afterComment 0 (s.drop 2))
  else
    match token evaluates progress.operand s with
    | .error problem => .error ⟨problem, some progress.position⟩
    | .ok (token, after) =>
      let position := movedTo progress.position s after
      match bracesOf progress.braces token with
      | some braces =>
        .ok ([(token, progress.position)],
          { position, braces, operand := token.opensOperand }, after)
      | none =>
        match templatePiece after with
        | none => .error ⟨.unterminatedText, some position⟩
        | some (text, more, beyond) =>
          let outer := progress.braces.drop 1
          .ok ([(token, progress.position), (.piece (String.ofList text) more, position)],
            { position := movedTo position after beyond
              braces := if more then 0 :: outer else outer
              operand := more }, beyond)

theorem eq_cons_of_take_two {s : List Char} {x y : Char} (h : s.take 2 = [x, y]) :
    ∃ s', s = x :: y :: s' := by
  refine ⟨s.drop 2, ?_⟩
  have := List.take_append_drop 2 s
  rw [h] at this
  exact this.symm

/-- Leaving out characters up to a certain one, or before it, does not depend on what follows it. -/
theorem dropWhile_append_cons {p : Char → Bool} {a : List Char} {d : Char} {r : List Char}
    (h : (d :: r).length ≤ ((a ++ d :: r).dropWhile p).length) (r' : List Char) :
    (a ++ d :: r').dropWhile p = a.dropWhile p ++ d :: r' := by
  rw [List.dropWhile_append] at h ⊢
  split at h
  · rename_i he
    cases hd : p d with
    | true =>
      rw [List.dropWhile_cons, if_pos hd] at h
      have := (List.dropWhile_suffix (l := r) p).length_le
      rw [List.length_cons] at h
      omega
    | false =>
      rw [if_pos he, List.dropWhile_cons, hd, List.isEmpty_iff.1 he]
      rfl
  · rename_i he
    rw [if_neg he]

/-- Only what comes before a text moves the place. -/
theorem movedTo_append (position : Position) (a a' b : List Char) :
    movedTo position (a ++ b) (a' ++ b) = movedTo position a a' := by
  unfold movedTo
  rw [List.length_append, List.length_append, Nat.add_sub_add_right,
    List.take_append_of_le_length (Nat.sub_le _ _)]

theorem Progress.past_append (progress : Progress) (a a' b : List Char) :
    progress.past (a ++ b) (a' ++ b) = progress.past a a' := by
  rw [past, movedTo_append, past]

section

variable {evaluates : Bool} {progress next : Progress} {found : List (Token × Position)}
  {a b s after : List Char}

theorem scan_succ (fuel : Nat) (hs : s ≠ []) :
    scan evaluates (fuel + 1) progress s = do
      let (found, progress, after) ← scanStep evaluates progress s
      let rest ← scan evaluates fuel progress after
      return found ++ rest := by
  cases s with
  | nil => exact absurd rfl hs
  | cons c s =>
    have skip (next : Progress) (after : List Char) : scan evaluates fuel next after = (do
        let rest ← scan evaluates fuel next after
        return [] ++ rest) := by
      cases scan evaluates fuel next after <;> rfl
    rw [scan, scanStep]
    simp only [List.head?_cons, Option.any_some]
    split
    · exact skip _ _
    · split
      · exact skip _ _
      · split
        · exact skip _ _
        · cases token evaluates progress.operand (c :: s) with
          | error problem => rfl
          | ok result =>
            obtain ⟨token, after⟩ := result
            simp only
            -- the token decides whether it opens an interpolation
            cases token
            case piece text more =>
              cases more with
              | true => rfl
              | false => rfl
            all_goals
              dsimp only [bracesOf]
              generalize bracesAfter progress.braces _ = braces
              cases braces with
              | some braces => rfl
              | none => cases templatePiece after <;> rfl

theorem scanStep_blank (hblank : s.head?.any Text.isBlank = true) :
    scanStep evaluates progress s = .ok ([], progress.past s (s.drop 1), s.drop 1) := by
  rw [scanStep, hblank]
  rfl

theorem scanStep_line (hblank : s.head?.any Text.isBlank = false) (hline : s.take 2 = ['/', '/']) :
    scanStep evaluates progress s =
      .ok ([], progress.past s (s.dropWhile (· ≠ '\n')), s.dropWhile (· ≠ '\n')) := by
  rw [scanStep, hblank]
  simp only [if_pos hline, Bool.false_eq_true, if_false]

theorem scanStep_comment (hblank : s.head?.any Text.isBlank = false)
    (hblock : s.take 2 = ['/', '*']) :
    scanStep evaluates progress s =
      .ok ([], progress.past s (afterComment 0 (s.drop 2)), afterComment 0 (s.drop 2)) := by
  have hline : s.take 2 ≠ ['/', '/'] := by rw [hblock]; decide
  rw [scanStep, hblank]
  simp only [if_neg hline, if_pos hblock, Bool.false_eq_true, if_false]

/-- What a step that finds a token leaves. -/
theorem scanStep_token (hblank : s.head?.any Text.isBlank = false)
    (hline : s.take 2 ≠ ['/', '/']) (hblock : s.take 2 ≠ ['/', '*']) :
    scanStep evaluates progress s =
      match token evaluates progress.operand s with
      | .error problem => .error ⟨problem, some progress.position⟩
      | .ok (token, after) =>
        let position := movedTo progress.position s after
        match bracesOf progress.braces token with
        | some braces =>
          .ok ([(token, progress.position)],
            { position, braces, operand := token.opensOperand }, after)
        | none =>
          match templatePiece after with
          | none => .error ⟨.unterminatedText, some position⟩
          | some (text, more, beyond) =>
            let outer := progress.braces.drop 1
            .ok ([(token, progress.position), (.piece (String.ofList text) more, position)],
              { position := movedTo position after beyond
                braces := if more then 0 :: outer else outer
                operand := more }, beyond) := by
  rw [scanStep, hblank]
  simp only [if_neg hline, if_neg hblock, Bool.false_eq_true, if_false]

/-- A step takes at least one character away. -/
theorem length_of_scanStep (h : scanStep evaluates progress s = .ok (found, next, after))
    (hs : s ≠ []) : after.length < s.length := by
  have hpos := List.length_pos_iff.2 hs
  cases hblank : s.head?.any Text.isBlank with
  | true =>
    rw [scanStep_blank hblank] at h
    cases h
    rw [List.length_drop]
    omega
  | false =>
    by_cases hline : s.take 2 = ['/', '/']
    · rw [scanStep_line hblank hline] at h
      cases h
      obtain ⟨s', rfl⟩ := eq_cons_of_take_two hline
      exact Nat.lt_of_le_of_lt (List.dropWhile_suffix (l := s') _).length_le
        (Nat.lt_succ_of_lt (Nat.lt_succ_self _))
    · by_cases hblock : s.take 2 = ['/', '*']
      · rw [scanStep_comment hblank hblock] at h
        cases h
        have := length_afterComment 0 (s.drop 2)
        have hl := congrArg List.length hblock
        simp only [List.length_take, List.length_drop, List.length_cons, List.length_nil] at this hl
        omega
      · rw [scanStep_token hblank hline hblock] at h
        cases ht : token evaluates progress.operand s with
        | error problem => rw [ht] at h; cases h
        | ok result =>
          obtain ⟨sign, rest⟩ := result
          have hlt := length_of_token ht
          rw [ht] at h
          simp only at h
          split at h
          · cases h
            exact hlt
          · split at h
            · cases h
            · rename_i hp
              cases h
              exact Nat.lt_trans (length_of_templatePiece hp) hlt

/-- A step that ends before a boundary, or at it, is the same whatever stands beyond it. -/
theorem scanStep_append {d : Char} {r : List Char} (ha : a ≠ []) (hd : isBoundary d)
    (h : scanStep evaluates progress (a ++ d :: r) = .ok (found, next, after))
    (hl : (d :: r).length ≤ after.length) :
    ∃ a', after = a' ++ d :: r ∧ ∀ r',
      scanStep evaluates progress (a ++ d :: r') = .ok (found, next, a' ++ d :: r') := by
  obtain ⟨c, a, rfl⟩ := List.exists_cons_of_ne_nil ha
  have two (r' : List Char) : (c :: a ++ d :: r').take 2 = (c :: a ++ d :: r).take 2 := by
    cases a <;> rfl
  have head (r' : List Char) : (c :: a ++ d :: r').head?.any Text.isBlank = Text.isBlank c := rfl
  cases hblank : Text.isBlank c with
  | true =>
    rw [scanStep_blank (by rw [head, hblank])] at h
    cases h
    refine ⟨a, rfl, fun r' => ?_⟩
    rw [scanStep_blank (by rw [head, hblank])]
    exact congrArg (fun next => Except.ok ([], next, a ++ d :: r'))
      ((progress.past_append (c :: a) a _).trans (progress.past_append (c :: a) a _).symm)
  | false =>
    by_cases hline : (c :: a ++ d :: r).take 2 = ['/', '/']
    · rw [scanStep_line (by rw [head, hblank]) hline] at h
      cases h
      have rest := dropWhile_append_cons hl
      refine ⟨(c :: a).dropWhile (· ≠ '\n'), rest r, fun r' => ?_⟩
      rw [scanStep_line (by rw [head, hblank]) (by rw [two, hline]), rest r, rest r',
        progress.past_append, progress.past_append]
    · by_cases hblock : (c :: a ++ d :: r).take 2 = ['/', '*']
      · rw [scanStep_comment (by rw [head, hblank]) hblock] at h
        cases h
        obtain ⟨a₂, ha₂⟩ : ∃ a₂, ∀ r', (c :: a ++ d :: r').drop 2 = a₂ ++ d :: r' := by
          cases a with
          | nil =>
            -- the boundary is no part of the opening of a comment
            cases hblock
            cases hd
          | cons e a => exact ⟨a, fun r' => rfl⟩
        rw [ha₂] at hl ⊢
        obtain ⟨a', he, hb⟩ := afterComment_append (List.cons_ne_nil d r) hl
        refine ⟨a', he, fun r' => ?_⟩
        rw [scanStep_comment (by rw [head, hblank]) (by rw [two, hblock]), ha₂, he, hb,
          progress.past_append, progress.past_append]
      · rw [scanStep_token (by rw [head, hblank]) hline hblock] at h
        cases ht : token evaluates progress.operand (c :: a ++ d :: r) with
        | error problem => rw [ht] at h; cases h
        | ok result =>
          obtain ⟨sign, rest⟩ := result
          rw [ht] at h
          simp only at h
          have beyond (r' : List Char) : Boundary (d :: r') := hd
          cases hbraces : bracesOf progress.braces sign with
          | some braces =>
            rw [hbraces] at h
            cases h
            obtain ⟨a', rfl, hb⟩ := token_append ha (beyond r) ht hl
            refine ⟨a', rfl, fun r' => ?_⟩
            rw [scanStep_token (by rw [head, hblank]) (by rw [two]; exact hline)
              (by rw [two]; exact hblock), hb _ (beyond r')]
            simp only [hbraces, movedTo_append]
          | none =>
            rw [hbraces] at h
            cases hpiece : templatePiece rest with
            | none => rw [hpiece] at h; cases h
            | some piece =>
              obtain ⟨text, more, last⟩ := piece
              rw [hpiece] at h
              cases h
              have := length_of_templatePiece hpiece
              obtain ⟨a₁, rfl, hb⟩ := token_append ha (beyond r) ht (by omega)
              obtain ⟨a', rfl, hb'⟩ := templatePiece_append hpiece hl
              refine ⟨a', rfl, fun r' => ?_⟩
              rw [scanStep_token (by rw [head, hblank]) (by rw [two]; exact hline)
                (by rw [two]; exact hblock), hb _ (beyond r')]
              simp only [hbraces, hb' _ (beyond r'), movedTo_append]

/-- How many steps are allowed does not matter if there are more of them than characters. -/
theorem scan_congr {fuel fuel' : Nat} (hfuel : s.length < fuel) (hfuel' : s.length < fuel') :
    scan evaluates fuel progress s = scan evaluates fuel' progress s := by
  induction fuel generalizing progress s fuel' with
  | zero => omega
  | succ fuel ih =>
    obtain ⟨fuel', rfl⟩ : ∃ n, fuel' = n + 1 := ⟨fuel' - 1, by omega⟩
    by_cases hs : s = []
    · subst hs
      rfl
    · rw [scan_succ fuel hs, scan_succ fuel' hs]
      cases hstep : scanStep evaluates progress s with
      | error err => rfl
      | ok result =>
        obtain ⟨found, next, after⟩ := result
        have hlt := length_of_scanStep hstep hs
        have hafter : scan evaluates fuel next after = scan evaluates fuel' next after :=
          ih (by omega) (by omega)
        show (do let rest ← scan evaluates fuel next after; return found ++ rest) =
          (do let rest ← scan evaluates fuel' next after; return found ++ rest)
        rw [hafter]

end

/-! ### Several steps -/

/-- Steps from one rest of a text to a later one, with the tokens that they find. -/
inductive Cuts (evaluates : Bool) : Progress → List Char → List (Token × Position) → Progress →
    List Char → Prop
  | done (progress : Progress) (s : List Char) : Cuts evaluates progress s [] progress s
  | step {progress next last : Progress} {s after rest : List Char}
    {found more : List (Token × Position)} (hs : s ≠ [])
    (first : scanStep evaluates progress s = .ok (found, next, after))
    (others : Cuts evaluates next after more last rest) :
    Cuts evaluates progress s (found ++ more) last rest

namespace Cuts

variable {evaluates : Bool} {progress next last : Progress} {found more : List (Token × Position)}
  {s after rest : List Char}

theorem append (h : Cuts evaluates progress s found next after)
    (h' : Cuts evaluates next after more last rest) :
    Cuts evaluates progress s (found ++ more) last rest := by
  induction h with
  | done => exact h'
  | step hs first _ ih =>
    rw [List.append_assoc]
    exact step hs first (ih h')

theorem length_le (h : Cuts evaluates progress s found next after) : after.length ≤ s.length := by
  induction h with
  | done => exact Nat.le_refl _
  | step hs first _ ih => exact Nat.le_trans ih (Nat.le_of_lt (length_of_scanStep first hs))

/-- The tokens of some steps come first among those of the text. -/
theorem scan (h : Cuts evaluates progress s found next after) {fuel : Nat}
    (hf : s.length < fuel) : ∃ fuel', after.length < fuel' ∧
      Lexer.scan evaluates fuel progress s =
        (Lexer.scan evaluates fuel' next after).map (found ++ ·) := by
  induction h generalizing fuel with
  | done progress s =>
    refine ⟨fuel, hf, ?_⟩
    cases Lexer.scan evaluates fuel progress s <;> rfl
  | step hs first _ ih =>
    obtain ⟨fuel, rfl⟩ : ∃ n, fuel = n + 1 := ⟨fuel - 1, by omega⟩
    have hlt := length_of_scanStep first hs
    obtain ⟨fuel', hf', ih⟩ := @ih fuel (by omega)
    refine ⟨fuel', hf', ?_⟩
    rw [scan_succ _ hs, first]
    simp only [bind, Except.bind, ih]
    cases Lexer.scan evaluates fuel' _ _ with
    | error err => rfl
    | ok tokens => simp [Except.map, pure, Except.pure]

/-- Steps that lead to a boundary find the same whatever stands beyond it. -/
theorem beyond {a : List Char} {d : Char} {r : List Char} (hd : isBoundary d)
    (h : Cuts evaluates progress (a ++ d :: r) found next (d :: r)) (r' : List Char) :
    Cuts evaluates progress (a ++ d :: r') found next (d :: r') := by
  generalize hs : a ++ d :: r = s at h
  generalize hafter : d :: r = after at h
  induction h generalizing a with
  | done progress s =>
    subst hafter
    obtain rfl : a = [] := List.append_left_eq_self.1 hs
    exact done _ _
  | step hne first others ih =>
    subst hs hafter
    have hl := others.length_le
    by_cases ha : a = []
    · subst ha
      have := length_of_scanStep first hne
      rw [List.nil_append] at this
      omega
    · obtain ⟨a', rfl, hb⟩ := scanStep_append ha hd first hl
      exact step (by simp) (hb r') (ih rfl rfl)

end Cuts

end Rulebook.Script.Lexer
