import Rulebook.Script.Simplify

/-!
# Statements that are kept

What the language leaves of the statements of a body is said by `kept` if a statement follows that has
an effect: of all statements, simplified and out of plain blocks, those with an effect. The statement
at the end is what keeps declarations in place, `trim_concat`. Behind statements with an effect, the
others are tidied without regard to what those are, `exists_trim_append`.
-/

namespace Rulebook.Script.Stmt

theorem simplifyAll_append (keep : Bool) (a b : List Stmt) :
    simplifyAll keep (a ++ b) = simplifyAll keep a ++ simplifyAll keep b := by
  induction a with
  | nil => rw [simplifyAll, List.nil_append, List.nil_append]
  | cons s a ih => rw [List.cons_append, simplifyAll, simplifyAll, ih, List.cons_append]

theorem flatten_append (a b : List Stmt) : flatten (a ++ b) = flatten a ++ flatten b := by
  induction a with
  | nil => rfl
  | cons s a ih =>
    cases s with
    | block body =>
      rw [List.cons_append, flatten, flatten, ih]
      split
      · rfl
      · rw [List.append_assoc]
    | _ => exact congrArg (_ :: ·) ih

/-- What is left of statements that others with an effect follow. -/
def kept (body : List Stmt) : List Stmt :=
  (flatten (simplifyAll true body)).filter fun s => !s.isPure

theorem kept_append (a b : List Stmt) : kept (a ++ b) = kept a ++ kept b := by
  rw [kept, simplifyAll_append, flatten_append, List.filter_append, kept, kept]

theorem kept_map {α : Type} (f : α → Stmt) (items : List α) :
    kept (items.map f) = items.flatMap fun a => kept [f a] := by
  induction items with
  | nil => rfl
  | cons a rest ih =>
    rw [List.map_cons, List.flatMap_cons, ← ih, ← kept_append, List.singleton_append]

/-! ### The last statement -/

variable {pure : Stmt → Bool} {last : Stmt}

/-- A last statement with an effect keeps all declarations before it in place. -/
theorem lastFixed_concat (body : List Stmt) (h : pure last = false) :
    lastFixed pure (body ++ [last]) = body.length := by
  have hfixed : isFixed pure last = true := by
    simp [isFixed, h]
  unfold lastFixed
  rw [List.reverse_append, List.reverse_singleton, List.singleton_append, List.findIdx?_cons,
    if_pos hfixed]
  simp

theorem dropPure_concat (body : List Stmt) (fixed index : Nat) (h : index + body.length ≤ fixed) :
    dropPure pure true fixed index (body ++ [last]) =
      (body.filter fun s => !s.isPure) ++ [last] := by
  induction body generalizing index with
  | nil => rfl
  | cons s body ih =>
    rw [List.length_cons] at h
    have hs : (true && (body ++ [last]).isEmpty) = false := by simp
    have hindex : decide (fixed ≤ index) = false := decide_eq_false (by omega)
    rw [List.cons_append, dropPure]
    simp only [hs, hindex, Bool.and_false, Bool.false_or, Bool.false_eq_true, if_false]
    rw [ih (index + 1) (by omega), List.filter_cons]
    cases s.isPure <;> rfl

theorem trimKept_concat (body : List Stmt) (h : pure last = false) :
    trimKept pure (last :: body) = last :: body := by
  have hlast : (!last.hasValue && pure last) = false := by rw [h, Bool.and_false]
  cases body with
  | nil =>
    unfold trimKept
    rw [hlast]
    rfl
  | cons before rest =>
    unfold trimKept
    split
    · rfl
    · rw [hlast]
      rfl

/-- In front of a last statement with an effect, the statements with an effect are left. -/
theorem trim_concat (inner : Bool) (body : List Stmt)
    (h : (if inner then isPureInside else isPure) last = false) :
    trim true inner (body ++ [last]) = (body.filter fun s => !s.isPure) ++ [last] := by
  unfold trim
  simp only [if_true]
  rw [lastFixed_concat _ h, dropPure_concat _ _ _ (Nat.le_of_eq (Nat.zero_add _)),
    List.reverse_append, List.reverse_singleton, List.singleton_append, trimKept_concat _ h,
    List.reverse_cons, List.reverse_reverse]

/-! ### The first statements -/

/-- Where the last declarations are does not matter outside of blocks. -/
theorem dropPure_congr (body : List Stmt) (fixed fixed' index index' : Nat) :
    dropPure isPure true fixed index body = dropPure isPure true fixed' index' body := by
  induction body generalizing index index' with
  | nil => rfl
  | cons s body ih =>
    have hdropped (p q : Bool) : ((p && q) || p) = p := by cases p <;> cases q <;> rfl
    rw [dropPure, dropPure, ih (index + 1) (index' + 1)]
    simp only [hdropped]

theorem dropPure_append (front body : List Stmt) (fixed index : Nat)
    (h : ∀ s ∈ front, s.isPure = false) :
    dropPure isPure true fixed index (front ++ body) =
      front ++ dropPure isPure true fixed index body := by
  induction front generalizing index with
  | nil => rfl
  | cons s front ih =>
    rw [List.cons_append, dropPure, h s (.head _), Bool.false_and, Bool.false_or, ite_self,
      if_neg Bool.false_ne_true, ih (index + 1) fun s hs => h s (.tail _ hs),
      dropPure_congr body fixed fixed (index + 1) index]
    rfl

/-- Statements are left out at the end until one has an effect. -/
theorem exists_trimKept_append (pure : Stmt → Bool) (body : List Stmt) : ∃ rest, ∀ last front,
    pure last = false → last.hasValue = false →
      trimKept pure (body ++ last :: front) = rest ++ last :: front := by
  induction body with
  | nil => exact ⟨[], fun last front h _ => trimKept_concat front h⟩
  | cons s body ih =>
    obtain ⟨rest, hrest⟩ := ih
    cases body with
    | nil =>
      refine ⟨if !s.hasValue && pure s then [] else [s], fun last front h hvalue => ?_⟩
      rw [List.singleton_append, trimKept, hvalue]
      · rw [trimKept_concat front h]
        split <;> rfl
      · simp [hvalue]
    | cons before body =>
      by_cases hends : s = empty ∧ before.hasValue = true
      · obtain ⟨rfl, hbefore⟩ := hends
        refine ⟨empty :: before :: body, fun last front _ _ => ?_⟩
        rw [List.cons_append, List.cons_append, trimKept]
        exact hbefore
      · have hstep (rest : List Stmt) : trimKept pure (s :: before :: rest) =
            if !s.hasValue && pure s then
              if before.hasValue then empty :: before :: rest else trimKept pure (before :: rest)
            else s :: before :: rest := by
          rw [trimKept]
          exact fun hs hbefore => hends ⟨hs, hbefore⟩
        refine ⟨if !s.hasValue && pure s then
          if before.hasValue then empty :: before :: body else rest else s :: before :: body,
          fun last front h hvalue => ?_⟩
        have hlast := hrest last front h hvalue
        rw [List.cons_append] at hlast
        rw [List.cons_append, List.cons_append, hstep, hlast]
        cases !s.hasValue && pure s <;> cases before.hasValue <;> rfl

/-- Statements with an effect at the beginning stay, and what is left of the others does not depend
on them, as long as the last of them has no value. -/
theorem exists_trim_append (body : List Stmt) : ∃ rest, ∀ front last,
    (∀ s ∈ front, s.isPure = false) → last.isPure = false → last.hasValue = false →
      trim true false (front ++ last :: body) = front ++ last :: rest := by
  obtain ⟨rest, hrest⟩ := exists_trimKept_append isPure (dropPure isPure true 0 0 body).reverse
  refine ⟨rest.reverse, fun front last hfront hlast hvalue => ?_⟩
  have hfirst : ∀ s ∈ front ++ [last], s.isPure = false := fun s hs =>
    (List.mem_append.1 hs).elim (hfront s) fun hs => List.mem_singleton.1 hs ▸ hlast
  unfold trim
  simp only [if_true, Bool.false_eq_true, if_false]
  rw [List.append_cons, dropPure_append _ _ _ _ hfirst, dropPure_congr body _ 0 _ 0,
    List.reverse_append, List.reverse_append, List.reverse_singleton, List.singleton_append,
    hrest last _ hlast hvalue]
  simp

end Rulebook.Script.Stmt
