import Rulebook.Proofs.Decimal.Nearest

/-!
# The digits of a double

The decimal that `Decimal.ofBinary` selects for a double lies in the interval of the double:
`Decimal.catches_ofBinary`. It is looked for on grids of more and more digits; on each grid one of the
two neighbours of the double is in its interval if the grid is fine enough, and seventeen digits are.
-/

namespace Rulebook

namespace Binary

variable {b : Binary}

theorem value_eq_num_div_den (b : Binary) : b.value = b.num / b.den := by
  rw [value, zpow_eq_div, num, den, Nat.shiftLeft_eq, Nat.shiftLeft_eq]
  push_cast
  rw [one_mul, mul_div_assoc]

/-- The double lies between two neighbours on a grid. -/
theorem floorAt_bounds (b : Binary) (e : ℤ) :
    b.floorAt e * 10 ^ e ≤ b.value ∧ b.value < (b.floorAt e + 1) * 10 ^ e := by
  have hpow : (0 : ℚ) < 10 ^ e := zpow_pos (by norm_num) _
  have hden : 0 < b.den * Nat.pow 10 e.toNat := by
    rw [den, Nat.shiftLeft_eq]
    exact Nat.mul_pos (by positivity) (Nat.pow_pos (by decide))
  have hquotient : b.value / 10 ^ e =
      ((b.num * Nat.pow 10 (-e).toNat : ℕ) : ℚ) / (b.den * Nat.pow 10 e.toNat : ℕ) := by
    rw [value_eq_num_div_den, zpow_eq_div 10 e, Nat.pow_eq, Nat.pow_eq]
    push_cast
    field_simp
  have hden' : (0 : ℚ) < (b.den * Nat.pow 10 e.toNat : ℕ) := Nat.cast_pos.2 hden
  constructor
  · rw [← le_div_iff₀ hpow, hquotient, le_div_iff₀ hden']
    exact_mod_cast Nat.div_mul_le_self _ _
  · rw [← div_lt_iff₀ hpow, hquotient, div_lt_iff₀ hden']
    rw [mul_comm ((b.floorAt e : ℚ) + 1)]
    exact_mod_cast Nat.lt_mul_div_succ (b.num * Nat.pow 10 (-e).toNat) hden

/-- The leading digit of a double is not too high. -/
theorem ten_pow_leading_le (hb : b.IsDouble) : (10 : ℚ) ^ b.leading ≤ b.value := by
  obtain ⟨hle, hlt⟩ := b.floorAt_bounds (-340)
  have hpos : 0 < b.floorAt (-340) := by
    refine Nat.pos_of_ne_zero fun hzero => ?_
    rw [hzero, Nat.cast_zero, zero_add, one_mul] at hlt
    exact absurd ((Decimal.ten_lt_low hb).trans b.low_lt_value) hlt.not_gt
  have hleast := (Decimal.length_toDigits_bounds hpos).1
  have hlength : 0 < (Nat.toDigits 10 (b.floorAt (-340))).length := Nat.length_toDigits_pos
  rw [leading]
  generalize (Nat.toDigits 10 (b.floorAt (-340))).length = size at hleast hlength ⊢
  refine le_trans ?_ hle
  have hexponent : (size : ℤ) - 341 = -340 + (size - 1 : ℕ) := by omega
  rw [hexponent, zpow_add₀ (by norm_num), zpow_natCast, mul_comm]
  exact mul_le_mul_of_nonneg_right (by exact_mod_cast hleast) (zpow_pos (by norm_num) _).le

end Binary

namespace Decimal

/-- Dropping zeros does not change the number. -/
theorem value_strip (d : Decimal) (fuel : ℕ) : (d.strip fuel).value = d.value := by
  induction fuel generalizing d with
  | zero => rfl
  | succ fuel ih =>
    rw [strip]
    split
    · rename_i hzero
      rw [ih, value, value]
      have hdigits : (d.digits : ℚ) = (d.digits / 10 : ℕ) * 10 := by
        exact_mod_cast (Nat.div_mul_cancel (Nat.dvd_of_mod_eq_zero hzero.2)).symm
      rw [hdigits, zpow_add_one₀ (by norm_num)]
      ring
    · rfl

variable {b : Binary} {tie : Tie}

theorem readsBack_of_choose {e : ℤ} {d : Decimal} (h : choose b tie e = some d) :
    b.readsBack d = true := by
  unfold choose at h
  dsimp only at h
  split at h
  · cases h
  · cases h
    assumption
  · cases h
    assumption
  · split at h
    · cases h
      assumption
    · cases h
      assumption
    · cases h
      assumption
    · split at h
      · cases h
        assumption
      · cases h
        assumption

theorem exists_choose_of_readsBack {e : ℤ} (h : b.readsBack ⟨b.floorAt e, e⟩ = true ∨
    b.readsBack ⟨b.floorAt e + 1, e⟩ = true) : ∃ d, choose b tie e = some d := by
  unfold choose
  dsimp only
  split
  · rename_i hbelow habove
    rw [hbelow, habove] at h
    exact absurd h (by decide)
  · exact ⟨_, rfl⟩
  · exact ⟨_, rfl⟩
  · split
    · exact ⟨_, rfl⟩
    · exact ⟨_, rfl⟩
    · exact ⟨_, rfl⟩
    · split
      · exact ⟨_, rfl⟩
      · exact ⟨_, rfl⟩

/-- Seventeen digits always suffice. -/
theorem exists_choose (hb : b.IsDouble) (tie : Tie) :
    ∃ d, choose b tie (b.leading - 16) = some d := by
  obtain ⟨hle, hlt⟩ := b.floorAt_bounds (b.leading - 16)
  have hgrid : (10 : ℚ) ^ (b.leading - 16) * 10 ^ 16 ≤ b.value := by
    refine le_of_eq_of_le ?_ (Binary.ten_pow_leading_le hb)
    rw [zpow_sub₀ (by norm_num)]
    exact div_mul_cancel₀ _ (by norm_num)
  have hpow : (0 : ℚ) < 2 ^ b.exponent := zpow_pos two_pos _
  have hmantissa : (b.mantissa : ℚ) < 2 ^ 53 := by exact_mod_cast hb.lt
  generalize hunit : (10 : ℚ) ^ (b.leading - 16) = unit at *
  -- half a step of the grid is less than the distance to the ends of the interval
  have hlow : unit / 2 < b.value - b.low := by
    rw [Binary.value, Binary.low, ← sub_mul, sub_sub_cancel]
    rw [Binary.value] at hgrid
    split
    · rename_i hnarrow
      rw [(hb.narrow.1 hnarrow).1] at hgrid
      push_cast at hgrid
      linarith
    · linarith [mul_lt_mul_of_pos_right hmantissa hpow]
  have hhigh : unit / 2 < b.high - b.value := by
    rw [Binary.value, Binary.high, ← sub_mul, add_sub_cancel_left]
    rw [Binary.value] at hgrid
    linarith [mul_lt_mul_of_pos_right hmantissa hpow]
  refine exists_choose_of_readsBack ?_
  rw [Binary.readsBack_iff hb, Binary.readsBack_iff hb]
  rcases le_or_gt (b.value - b.floorAt (b.leading - 16) * unit) (unit / 2) with hnear | hfar
  · left
    rw [value]
    dsimp only
    rw [hunit]
    exact Binary.catches_of_lt (by linarith) (by linarith)
  · right
    rw [value]
    dsimp only
    rw [hunit, Nat.cast_add_one]
    exact Binary.catches_of_lt (by linarith) (by linarith)

/-- The decimal that is selected lies in the interval. -/
theorem catches_ofBinary (hb : b.IsDouble) (tie : Tie) : b.Catches (ofBinary b tie).value := by
  obtain ⟨d, hd⟩ := exists_choose hb tie
  unfold ofBinary
  dsimp only
  split
  · rename_i found hfound
    obtain ⟨k, -, hk⟩ := List.exists_of_findSome?_eq_some hfound
    rw [value_strip]
    exact (Binary.readsBack_iff hb found).1 (readsBack_of_choose hk)
  · rename_i hnone
    have := List.findSome?_eq_none_iff.1 hnone 16 (List.mem_range.2 (by decide))
    rw [show b.leading - (16 : ℕ) = b.leading - 16 from rfl, hd] at this
    cases this

end Decimal
end Rulebook
