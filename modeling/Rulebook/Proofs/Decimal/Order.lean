import Rulebook.Proofs.Decimal.Nearest

/-!
# Rounding keeps the order

Between a double and a number that rounds to another double there is always the end of an interval: no
double lies in the interval of another one (`IsDouble.value_lt_low`, `IsDouble.high_lt_value`). So a
number is never rounded past a double. An integer compares with a double as its own double does, unless
it is rounded to the other one: `Decimal.ofInt_lt_iff`.
-/

namespace Rulebook

open Extended
open Float.Model.UnpackedFloat (Sign.apply)

namespace Binary

variable {b c : Binary} {q : ℚ}

/-- The greatest mantissas with a smaller exponent lie below the interval of a double. -/
theorem IsDouble.last_lt_low (hb : b.IsDouble) (hexponent : -1074 < b.exponent) :
    (0x1fffffffffffff : ℚ) * 2 ^ (b.exponent - 1) < b.low := by
  have hpow : (0 : ℚ) < 2 ^ b.exponent := zpow_pos two_pos _
  have hfull : 0x10000000000000 ≤ b.mantissa := hb.full.resolve_right (by omega)
  have hends : (0x1fffffffffffff : ℚ) / 2 < b.mantissa - if b.narrowBelow then 1 / 4 else 1 / 2 := by
    split
    · have hmantissa : (0x10000000000000 : ℚ) ≤ b.mantissa := by exact_mod_cast hfull
      norm_num
      linarith
    · rename_i hwide
      have hne : b.mantissa ≠ 0x10000000000000 := fun h => hwide (hb.narrow.2 ⟨h, hexponent⟩)
      have hmantissa : (0x10000000000001 : ℚ) ≤ b.mantissa := by
        exact_mod_cast Nat.lt_of_le_of_ne hfull hne.symm
      norm_num
      linarith
  calc (0x1fffffffffffff : ℚ) * 2 ^ (b.exponent - 1) = 0x1fffffffffffff / 2 * 2 ^ b.exponent := by
        rw [zpow_sub_one₀ two_ne_zero]
        ring
    _ < b.low := mul_lt_mul_of_pos_right hends hpow

/-- A smaller double lies below the interval of a double. -/
theorem IsDouble.value_lt_low (hc : c.IsDouble) (hb : b.IsDouble) (h : c.value < b.value) :
    c.value < b.low := by
  have hpow : (0 : ℚ) < 2 ^ b.exponent := zpow_pos two_pos _
  obtain hexponent | ⟨hexponent, hmantissa⟩ := (hc.value_lt_iff hb).1 h
  · have hlow := hc.low
    have hlast : (c.mantissa : ℚ) ≤ 0x1fffffffffffff := by exact_mod_cast Nat.le_of_lt_succ hc.lt
    have hstep : (2 : ℚ) ^ c.exponent ≤ 2 ^ (b.exponent - 1) :=
      zpow_le_zpow_right₀ one_le_two (by omega)
    calc c.value ≤ 0x1fffffffffffff * 2 ^ (b.exponent - 1) :=
          mul_le_mul hlast hstep (zpow_pos two_pos _).le (by norm_num)
      _ < b.low := hb.last_lt_low (by omega)
  · have hnext : (c.mantissa : ℚ) + 1 ≤ b.mantissa := by exact_mod_cast hmantissa
    rw [value, hexponent]
    refine mul_lt_mul_of_pos_right ?_ hpow
    split <;> linarith

/-- A greater double lies above the interval of a double. -/
theorem IsDouble.high_lt_value (hb : b.IsDouble) (hc : c.IsDouble) (h : b.value < c.value) :
    b.high < c.value := by
  have hpow : (0 : ℚ) < 2 ^ b.exponent := zpow_pos two_pos _
  obtain hexponent | ⟨hexponent, hmantissa⟩ := (hb.value_lt_iff hc).1 h
  · have hlow := hb.low
    have hlast : (b.mantissa : ℚ) ≤ 0x1fffffffffffff := by exact_mod_cast Nat.le_of_lt_succ hb.lt
    have hfull : (0x10000000000000 : ℚ) ≤ c.mantissa := by
      exact_mod_cast hc.full.resolve_right (by omega)
    have hstep : (2 : ℚ) ^ (b.exponent + 1) ≤ 2 ^ c.exponent :=
      zpow_le_zpow_right₀ one_le_two (by omega)
    calc b.high < 0x20000000000000 * 2 ^ b.exponent :=
          mul_lt_mul_of_pos_right (by linarith) hpow
      _ = 0x10000000000000 * 2 ^ (b.exponent + 1) := by
          rw [zpow_add_one₀ two_ne_zero]
          ring
      _ ≤ c.value := mul_le_mul hfull hstep (zpow_pos two_pos _).le (Nat.cast_nonneg _)
  · have hnext : (b.mantissa : ℚ) + 1 ≤ c.mantissa := by exact_mod_cast hmantissa
    rw [value, ← hexponent]
    exact mul_lt_mul_of_pos_right (by linarith) hpow

theorem IsDouble.value_pos (hb : b.IsDouble) : 0 < b.value :=
  mul_pos (Nat.cast_pos.2 hb.pos) (zpow_pos two_pos _)

/-- A number that is not above a double is not rounded above it. -/
theorem Catches.value_le (hr : b.Catches q) (hb : b.IsDouble) (hc : c.IsDouble) (h : q ≤ c.value) :
    b.value ≤ c.value := by
  by_contra hlt
  exact absurd (hr.low_le.trans h) (hc.value_lt_low hb (not_le.1 hlt)).not_ge

/-- A number that is not below a double is not rounded below it. -/
theorem Catches.le_value (hr : b.Catches q) (hb : b.IsDouble) (hc : c.IsDouble) (h : c.value ≤ q) :
    c.value ≤ b.value := by
  by_contra hlt
  exact absurd (h.trans hr.le_high) (hb.high_lt_value hc (not_le.1 hlt)).not_ge

end Binary

@[simp] theorem Extended.ofRat_inj {p q : ℚ} : ofRat p = ofRat q ↔ p = q := by
  rw [ofRat, ofRat, WithBot.coe_inj, WithTop.coe_inj]

/-- Whether a rational number is a double: zero, a number with a mantissa and an exponent, or the
negative of one. -/
def Double.Finite (q : ℚ) : Prop := q = 0 ∨ ∃ b : Binary, b.IsDouble ∧ (q = b.value ∨ q = -b.value)

theorem Double.Finite.neg {q : ℚ} (h : Finite q) : Finite (-q) := by
  obtain rfl | ⟨b, hb, rfl | rfl⟩ := h
  · exact .inl neg_zero
  · exact .inr ⟨b, hb, .inr rfl⟩
  · exact .inr ⟨b, hb, .inl (neg_neg _)⟩

theorem Double.finite_of_value {x : Float} {q : ℚ} (h : Double.value x = some (ofRat q)) :
    Finite q := by
  have hcanonical := Double.canonical_unpack x
  rw [Double.value] at h
  generalize x.toModel.unpack = u at h hcanonical
  cases u with
  | notANumber => cases h
  | infinity s =>
    cases s with
    | positive => exact absurd (Option.some.inj h).symm (ofRat_lt_top q).ne
    | negative => exact absurd (Option.some.inj h) (bot_lt_ofRat q).ne
  | zero s => exact .inl (ofRat_inj.1 (Option.some.inj h)).symm
  | finite s m e hm =>
    obtain ⟨b, hb, rfl, rfl⟩ := hcanonical
    have hq := (ofRat_inj.1 (Option.some.inj h)).symm
    cases s with
    | positive => exact .inr ⟨b, hb, .inl (by simpa [Sign.apply, Binary.value] using hq)⟩
    | negative => exact .inr ⟨b, hb, .inr (by simpa [Sign.apply, Binary.value] using hq)⟩

namespace Decimal

/-- Whether a rational number is the double to which an integer is rounded: the nearest one, and of two
that are equally near the one with the even mantissa. -/
def Rounds (n : ℤ) (r : ℚ) : Prop :=
  n = 0 ∧ r = 0 ∨
    n ≠ 0 ∧ ∃ b : Binary, b.IsDouble ∧ b.Catches n.natAbs ∧ r = if n < 0 then -b.value else b.value

variable {n : ℤ} {r a : ℚ}

theorem value_ofInt_of_rounds (h : Rounds n r) : Double.value (ofInt n) = some (ofRat r) := by
  obtain ⟨rfl, rfl⟩ | ⟨-, b, hb, hr, rfl⟩ := h
  · exact value_ofInt (by decide)
  · exact value_ofInt_of_catches hb hr

theorem exists_rounds (h : n.natAbs.log2 < 1023) : ∃ r, Rounds n r := by
  obtain rfl | hne := eq_or_ne n 0
  · exact ⟨0, .inl ⟨rfl, rfl⟩⟩
  · obtain ⟨b, hb, hr⟩ := Binary.exists_catches (Int.natAbs_pos.2 hne) h
    exact ⟨_, .inr ⟨hne, b, hb, hr, rfl⟩⟩

/-- An integer is rounded to one double only. -/
theorem Rounds.eq_iff (h : Rounds n r) : r = a ↔ Rounds n a := by
  refine ⟨fun heq => heq ▸ h, fun h' => ?_⟩
  have hsame := (value_ofInt_of_rounds h).symm.trans (value_ofInt_of_rounds h')
  exact ofRat_inj.1 (Option.some.inj hsame)

theorem Rounds.neg (h : Rounds n r) : Rounds (-n) (-r) := by
  obtain ⟨rfl, rfl⟩ | ⟨hne, b, hb, hr, rfl⟩ := h
  · exact .inl ⟨neg_zero, neg_zero⟩
  · refine .inr ⟨neg_ne_zero.2 hne, b, hb, by rwa [Int.natAbs_neg], ?_⟩
    obtain hneg | hpos := lt_or_gt_of_ne hne
    · rw [if_pos hneg, if_neg (by omega), neg_neg]
    · rw [if_neg (by omega), if_pos (by omega)]

/-- An integer that is not above a double is not rounded above it. -/
theorem Rounds.le (hr : Rounds n r) (ha : Double.Finite a) (h : (n : ℚ) ≤ a) : r ≤ a := by
  obtain ⟨rfl, rfl⟩ | ⟨hne, b, hb, hcatches, rfl⟩ := hr
  · exact_mod_cast h
  have hbpos := hb.value_pos
  obtain hneg | hpos := lt_or_gt_of_ne hne
  · have habs : ((n.natAbs : ℕ) : ℚ) = -n := by
      rw [Nat.cast_natAbs, abs_of_neg hneg, Int.cast_neg]
    rw [if_pos hneg]
    rw [habs] at hcatches
    obtain rfl | ⟨c, hc, rfl | rfl⟩ := ha
    · linarith
    · linarith [hc.value_pos]
    · exact neg_le_neg (hcatches.le_value hb hc (le_neg_of_le_neg h))
  · have hposq : (0 : ℚ) < n := by exact_mod_cast hpos
    have habs : ((n.natAbs : ℕ) : ℚ) = n := by rw [Nat.cast_natAbs, abs_of_pos hpos]
    rw [if_neg hpos.not_gt]
    rw [habs] at hcatches
    obtain rfl | ⟨c, hc, rfl | rfl⟩ := ha
    · exact absurd h hposq.not_ge
    · exact hcatches.value_le hb hc h
    · linarith [hc.value_pos]

/-- An integer that is not below a double is not rounded below it. -/
theorem Rounds.ge (hr : Rounds n r) (ha : Double.Finite a) (h : a ≤ n) : a ≤ r :=
  neg_le_neg_iff.1 (hr.neg.le ha.neg (by rw [Int.cast_neg]; exact neg_le_neg h))

/-- The double of an integer is below another one if the integer is, and is not rounded to it. -/
theorem Rounds.lt_iff (hr : Rounds n r) (ha : Double.Finite a) : r < a ↔ n < a ∧ ¬ Rounds n a := by
  rw [← hr.eq_iff]
  constructor
  · exact fun h => ⟨not_le.1 fun hle => h.not_ge (hr.ge ha hle), h.ne⟩
  · exact fun ⟨h, hne⟩ => lt_of_le_of_ne (hr.le ha h.le) hne

/-- The double of an integer is above another one if the integer is, and is not rounded to it. -/
theorem Rounds.gt_iff (hr : Rounds n r) (ha : Double.Finite a) : a < r ↔ a < n ∧ ¬ Rounds n a := by
  rw [← hr.eq_iff]
  constructor
  · exact fun h => ⟨not_le.1 fun hle => h.not_ge (hr.le ha hle), h.ne'⟩
  · exact fun ⟨h, hne⟩ => lt_of_le_of_ne (hr.ge ha h.le) (Ne.symm hne)

/-- How the double of an integer compares with another one. -/
theorem ofInt_lt_iff {x : Float} (hn : n.natAbs.log2 < 1023) (hx : Double.value x = some (ofRat a)) :
    (ofInt n < x ↔ n < a ∧ ¬ Rounds n a) ∧ (x < ofInt n ↔ a < n ∧ ¬ Rounds n a) := by
  obtain ⟨r, hr⟩ := exists_rounds hn
  have hvalue := value_ofInt_of_rounds hr
  have ha := Double.finite_of_value hx
  rw [← hr.lt_iff ha, ← hr.gt_iff ha, Double.lt_iff, Double.lt_iff]
  simp [hvalue, hx]

/-! ### When nothing is lost -/

/-- An integer of up to 53 bits is not rounded. -/
theorem Rounds.eq_of_le (h : Rounds n r) (hn : n.natAbs ≤ 0x20000000000000) : r = n := by
  have hsame := (value_ofInt_of_rounds h).symm.trans (value_ofInt hn)
  exact ofRat_inj.1 (Option.some.inj hsame)

theorem finite_of_le (hn : n.natAbs ≤ 0x20000000000000) : Double.Finite n :=
  Double.finite_of_value (value_ofInt hn)

/-- No other integer is rounded to one of less than 53 bits. -/
theorem Rounds.eq_of_lt {m : ℤ} (h : Rounds n m) (hm : m.natAbs < 0x20000000000000) : m = n := by
  by_contra hne
  have hlarge : 0x20000000000000 < n.natAbs := by
    by_contra hle
    exact hne (by exact_mod_cast h.eq_of_le (not_lt.1 hle))
  have hhigh : Double.Finite (0x20000000000000 : ℤ) := finite_of_le (by decide)
  obtain hneg | hpos := lt_or_ge n 0
  · have hle : ((-0x20000000000000 : ℤ) : ℚ) ≥ m := by
      refine h.le (finite_of_le (by decide)) ?_
      exact_mod_cast (by omega : n ≤ -0x20000000000000)
    have hle : m ≤ -0x20000000000000 := by exact_mod_cast hle
    omega
  · have hge : ((0x20000000000000 : ℤ) : ℚ) ≤ m := by
      refine h.ge hhigh ?_
      exact_mod_cast (by omega : 0x20000000000000 ≤ n)
    have hge : 0x20000000000000 ≤ m := by exact_mod_cast hge
    omega

/-! ### How far an integer is rounded -/

/-- The double that is two to the power of 64. -/
def beyondWords : Binary := ⟨0x10000000000000, 12, true⟩

theorem isDouble_beyondWords : beyondWords.IsDouble := by
  refine ⟨?_, ?_, ?_, ?_, ?_, ?_⟩ <;> decide

theorem value_beyondWords : beyondWords.value = 2 ^ 64 := by
  rw [Binary.value, beyondWords]
  norm_num

/-- A number in the range of words is at most half of the greatest distance of doubles there away from
its double. -/
theorem abs_sub_le_of_catches {b : Binary} {q : ℚ} (hb : b.IsDouble) (hr : b.Catches q)
    (hq : q < 2 ^ 64) : |q - b.value| ≤ 1024 := by
  have hpow : (0 : ℚ) < 2 ^ b.exponent := zpow_pos two_pos _
  have hlow := hr.low_le
  have hhigh := hr.le_high
  have hbelow : b.value ≤ beyondWords.value :=
    hr.value_le hb isDouble_beyondWords (value_beyondWords ▸ hq.le)
  -- below the end of the range the unit is at most 2048; at the end the interval is known
  obtain hlt | heq := hbelow.lt_or_eq
  · have hexponent : b.exponent ≤ 11 := by
      obtain h | ⟨h, hmantissa⟩ := (hb.value_lt_iff isDouble_beyondWords).1 hlt
      · exact Int.lt_add_one_iff.1 h
      · have hfull := hb.full.resolve_right (by rw [h]; decide)
        exact absurd hmantissa hfull.not_gt
    have hunit : (2 : ℚ) ^ b.exponent ≤ 2048 := by
      calc (2 : ℚ) ^ b.exponent ≤ 2 ^ (11 : ℤ) := zpow_le_zpow_right₀ one_le_two hexponent
        _ = 2048 := by norm_num
    rw [Binary.low] at hlow
    rw [Binary.high] at hhigh
    rw [Binary.value, abs_le]
    split at hlow <;> constructor <;> linarith
  · have hnot := hb.value_lt_iff isDouble_beyondWords
    have hnot' := isDouble_beyondWords.value_lt_iff hb
    have hsame : b = beyondWords := by
      refine hb.ext isDouble_beyondWords ?_ ?_ <;>
        simp only [heq, lt_irrefl, false_iff] at hnot hnot' <;> omega
    have hend : beyondWords.low = 2 ^ 64 - 1024 := by
      rw [Binary.low, beyondWords]
      norm_num
    rw [hsame] at hlow ⊢
    rw [value_beyondWords, abs_le]
    constructor <;> linarith

/-- An integer of 64 bits is rounded to a number at most 1024 away. -/
theorem Rounds.abs_sub_le (h : Rounds n r) (hn : n.natAbs < 2 ^ 64) : |n - r| ≤ 1024 := by
  obtain ⟨rfl, rfl⟩ | ⟨hne, b, hb, hr, rfl⟩ := h
  · norm_num
  have hbound := abs_sub_le_of_catches hb hr (by exact_mod_cast hn)
  rw [Nat.cast_natAbs] at hbound
  split
  · rename_i hneg
    rw [abs_of_neg hneg, ← abs_neg] at hbound
    convert hbound using 2
    push_cast
    ring
  · rename_i hpos
    rwa [abs_of_nonneg (not_lt.1 hpos)] at hbound

end Decimal
end Rulebook
