import Rulebook.Proofs.Text.Runs
import Rulebook.Surface.Piece

/-!
# White space

The code points of white space, read off the table of the class (`Text.toNat_of_isBlank`). None of them
is part of a word or a number, nor does it begin anything longer than itself.
-/

namespace Rulebook

/-- The search finds the number of entries that are not above `n`. -/
theorem Text.countUpTo_spec (bounds : Array Nat) (n lo hi : Nat) (h : lo ≤ hi) :
    let found := countUpTo bounds n lo hi
    lo ≤ found ∧ found ≤ hi ∧ (lo < found → bounds.getD (found - 1) 0 ≤ n) ∧
      (found < hi → n < bounds.getD found 0) := by
  fun_induction countUpTo bounds n lo hi with
  | case1 lo hi hlt mid hle ih =>
    obtain ⟨hlow, hhigh, hbelow, habove⟩ := ih (by omega)
    refine ⟨by omega, hhigh, fun _ => ?_, habove⟩
    rcases Nat.lt_or_ge (mid + 1) (countUpTo bounds n (mid + 1) hi) with hmore | hnone
    · exact hbelow hmore
    · have hmid : countUpTo bounds n (mid + 1) hi - 1 = mid := by omega
      rw [hmid]
      exact hle
  | case2 lo hi hlt mid hle ih =>
    obtain ⟨hlow, hhigh, hbelow, habove⟩ := ih (by omega)
    refine ⟨hlow, by omega, hbelow, fun _ => ?_⟩
    rcases Nat.lt_or_ge (countUpTo bounds n lo mid) mid with hless | hall
    · exact habove hless
    · have hmid : countUpTo bounds n lo mid = mid := by omega
      rw [hmid]
      omega
  | case3 lo hi hlt =>
    exact ⟨Nat.le_refl _, h, fun hless => absurd hless (by omega), fun hless => absurd hless hlt⟩

/-- The code points of white space. -/
def blankPoints : List Nat :=
  [9, 10, 11, 12, 13, 32, 0x85, 0xa0, 0x1680, 0x2000, 0x2001, 0x2002, 0x2003, 0x2004, 0x2005, 0x2006,
    0x2007, 0x2008, 0x2009, 0x200a, 0x2028, 0x2029, 0x202f, 0x205f, 0x3000]

theorem Text.toNat_of_isBlank {c : Char} (h : isBlank c = true) : c.toNat ∈ blankPoints := by
  unfold isBlank at h
  split at h
  · rename_i hsmall
    simp only [Bool.or_eq_true, beq_iff_eq, Bool.and_eq_true, decide_eq_true_eq] at h
    rcases h with rfl | h
    · decide
    · simp only [blankPoints, List.mem_cons]
      omega
  · have hspec := countUpTo_spec blankBounds c.toNat 0 16 (by decide)
    have hodd : countUpTo blankBounds c.toNat 0 16 % 2 = 1 := by
      simpa [inBounds, blankBounds] using h
    generalize countUpTo blankBounds c.toNat 0 16 = found at hspec hodd
    obtain ⟨-, hle, hlow, hhigh⟩ := hspec
    have hlow := hlow (by omega)
    have hhigh := hhigh (by omega)
    have hfound : found = 1 ∨ found = 3 ∨ found = 5 ∨ found = 7 ∨ found = 9 ∨ found = 11 ∨
        found = 13 ∨ found = 15 := by omega
    simp only [blankPoints, List.mem_cons, List.not_mem_nil, or_false]
    rcases hfound with rfl | rfl | rfl | rfl | rfl | rfl | rfl | rfl <;>
      simp [blankBounds] at hlow hhigh <;> omega

namespace Surface

/-- White space is neither part of a word nor of a number and begins nothing. -/
theorem of_isBlank_eq_true {c : Char} (h : Text.isBlank c = true) :
    isNumberPart c = false ∧ isWordStart c = false ∧ c.isDigit = false ∧
      c ∉ ['"', '\'', '\x60', '/', '=', '!', '#', '\x7b', '.'] := by
  have hall : ∀ n ∈ blankPoints, isNumberPart (Char.ofNat n) = false ∧
      isWordStart (Char.ofNat n) = false ∧ (Char.ofNat n).isDigit = false ∧
      Char.ofNat n ∉ ['"', '\'', '\x60', '/', '=', '!', '#', '\x7b', '.'] := by decide +kernel
  have := hall c.toNat (Text.toNat_of_isBlank h)
  rwa [Char.ofNat_toNat] at this

end Surface

end Rulebook
