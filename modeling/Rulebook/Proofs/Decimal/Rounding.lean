import Rulebook.Proofs.Decimal.Values

/-!
# Rounding to doubles

The arithmetic of doubles keeps the exact result as a mantissa with two more bits, shifts it to the
exponent that a double of this size has, and rounds to the nearest mantissa, a tie going to the even
one. So a number in the interval of a double is rounded to that double: `roundWithAccuracy_eq`, and so
are products and quotients: `mul_eq`, `div_eq`.
-/

namespace Rulebook

open Float.Model (Format UnpackedFloat totalExponent)
open Float.Model.UnpackedFloat

namespace Rounding

/-! ### Mantissas with two more bits -/

/-- Whether the bits after a mantissa tell where a number lies between it and the next integer. -/
structure Locates (em : ExtendedMantissa) (r : ℚ) : Prop where
  le : em.mantissa ≤ r
  lt : r < em.mantissa + 1
  round : em.roundBit = true ↔ em.mantissa + 1 / 2 ≤ r
  sticky : em.stickyBit = true ↔ r ≠ em.mantissa ∧ r ≠ em.mantissa + 1 / 2

variable {em : ExtendedMantissa} {r : ℚ}

/-- The number is no integer if one of the bits is set. -/
theorem Locates.inexact_iff (h : Locates em r) :
    (em.roundBit || em.stickyBit) = true ↔ r ≠ em.mantissa := by
  rw [Bool.or_eq_true, h.round, h.sticky]
  constructor
  · rintro (hhalf | hne)
    · intro heq
      linarith
    · exact hne.1
  · intro hne
    by_cases hhalf : r = em.mantissa + 1 / 2
    · exact .inl hhalf.ge
    · exact .inr ⟨hne, hhalf⟩

/-- Shifting by one bit halves the number. -/
theorem Locates.shiftRightOne (h : Locates em r) : Locates em.shiftRightOne (r / 2) := by
  have hinexact := h.inexact_iff
  obtain ⟨m, round, sticky⟩ := em
  obtain ⟨hle, hlt, -, -⟩ := h
  have hparts : (m : ℚ) = 2 * (m / 2 : ℕ) + (m % 2 : ℕ) := by
    exact_mod_cast (Nat.div_add_mod m 2).symm
  dsimp only at hle hlt hinexact
  rcases Nat.mod_two_eq_zero_or_one m with hbit | hbit <;>
    rw [hbit] at hparts <;> push_cast at hparts <;>
    constructor <;> simp only [ExtendedMantissa.shiftRightOne, hbit]
  case inl.le => linarith
  case inl.lt => linarith
  case inl.round => exact iff_of_false (by decide) (by linarith)
  case inl.sticky =>
    refine hinexact.trans ⟨fun hne => ⟨fun heq => hne ?_, ?_⟩, fun hne heq => hne.1 ?_⟩
    · linarith
    · intro heq
      linarith
    · linarith
  case inr.le => linarith
  case inr.lt => linarith
  case inr.round => exact iff_of_true rfl (by linarith)
  case inr.sticky =>
    refine hinexact.trans ⟨fun hne => ⟨?_, fun heq => hne ?_⟩, fun hne heq => hne.2 ?_⟩
    · intro heq
      linarith
    · linarith
    · linarith

theorem Locates.shiftRight (h : Locates em r) (k : ℕ) : Locates (em >>> k) (r / 2 ^ k) := by
  induction k with
  | zero =>
    rw [pow_zero, div_one]
    exact h
  | succ k ih =>
    rw [pow_succ, ← div_div]
    exact ih.shiftRightOne

/-- The rounded mantissa is the nearest integer; of two nearest ones it is the even one. -/
theorem Locates.roundedMantissa_eq (h : Locates em r) {k : ℕ} (hlow : (k : ℚ) - 1 / 2 ≤ r)
    (hhigh : r ≤ k + 1 / 2) (hodd : k % 2 = 1 → (k : ℚ) - 1 / 2 < r ∧ r < k + 1 / 2) :
    em.roundedMantissa = k := by
  obtain ⟨m, round, sticky⟩ := em
  obtain ⟨hle, hlt, hround, hsticky⟩ := h
  dsimp only at hle hlt hround hsticky
  cases round with
  | false =>
    have hhalf : r < m + 1 / 2 := by simpa using hround
    have hkm : k ≤ m := by
      have : (k : ℚ) < m + 1 := by linarith
      exact Nat.lt_succ_iff.1 (by exact_mod_cast this)
    have hmk : m ≤ k := by
      have : (m : ℚ) < k + 1 := by linarith
      exact Nat.lt_succ_iff.1 (by exact_mod_cast this)
    cases sticky <;> exact Nat.le_antisymm hmk hkm
  | true =>
    have hhalf : (m : ℚ) + 1 / 2 ≤ r := hround.1 rfl
    have hmk : m ≤ k := by
      have : (m : ℚ) ≤ k := by linarith
      exact_mod_cast this
    have hkm : k ≤ m + 1 := by
      have : (k : ℚ) < m + 1 + 1 := by linarith
      exact Nat.lt_succ_iff.1 (by exact_mod_cast this)
    cases sticky with
    | true =>
      have hne := (hsticky.1 rfl).2
      have hk : m < k := by
        have : (m : ℚ) < k := by linarith [lt_of_le_of_ne hhalf hne.symm]
        exact_mod_cast this
      exact Nat.le_antisymm hk hkm
    | false =>
      -- a tie, which only an even mantissa wins
      have htie : r = m + 1 / 2 := by
        by_contra hne
        have hm : r ≠ m := fun heq => by linarith
        exact absurd (hsticky.2 ⟨hm, hne⟩) Bool.false_ne_true
      have heven : k % 2 = 0 := by
        by_contra hk
        obtain ⟨hl, hh⟩ := hodd (by omega)
        have hkm : k < m + 1 := by
          have : (k : ℚ) < m + 1 := by linarith
          exact_mod_cast this
        have hmk : m < k := by
          have : (m : ℚ) < k := by linarith
          exact_mod_cast this
        omega
      show m + m % 2 = k
      omega

theorem locates_exact (m : ℕ) : Locates (.ofMantissaAndAccuracy m .exact) m := by
  refine ⟨le_rfl, lt_add_one _, iff_of_false Bool.false_ne_true ?_,
    iff_of_false Bool.false_ne_true fun h => h.1 rfl⟩
  show ¬ (m : ℚ) + 1 / 2 ≤ m
  linarith

/-- The remainder of a division tells where the quotient lies. -/
theorem locates_quotient (m : ℕ) {n : ℕ} (hn : 0 < n) :
    Locates (.ofMantissaAndAccuracy (m / n) (accuracyOfFraction (m % n) n)) (m / n : ℚ) := by
  have hn' : (0 : ℚ) < n := Nat.cast_pos.2 hn
  have hparts : (m : ℚ) = n * (m / n : ℕ) + (m % n : ℕ) := by
    exact_mod_cast (Nat.div_add_mod m n).symm
  have hquotient : (m / n : ℚ) = (m / n : ℕ) + (m % n : ℕ) / n := by
    rw [hparts]
    field_simp
  rw [hquotient]
  generalize m / n = q
  have hlt := Nat.mod_lt m hn
  generalize m % n = t at hlt ⊢
  unfold accuracyOfFraction
  split
  · rename_i hzero
    rw [hzero, Nat.cast_zero, zero_div, add_zero]
    exact locates_exact q
  · rename_i hne
    have hpos : (0 : ℚ) < t / n := div_pos (Nat.cast_pos.2 (Nat.pos_of_ne_zero hne)) hn'
    have hone : (t / n : ℚ) < 1 := (div_lt_one hn').2 (Nat.cast_lt.2 hlt)
    -- below the middle, in the middle, or above it
    rcases lt_trichotomy (2 * t) n with h | h | h
    · have hhalf : (t / n : ℚ) < 1 / 2 := by
        rw [div_lt_iff₀ hn']
        have : (2 * t : ℚ) < n := by exact_mod_cast h
        linarith
      rw [Nat.compare_eq_lt.2 h]
      refine ⟨?_, ?_, iff_of_false Bool.false_ne_true ?_, iff_of_true rfl ⟨fun heq => ?_, fun heq => ?_⟩⟩ <;>
        dsimp only [ExtendedMantissa.ofMantissaAndAccuracy] at * <;> linarith
    · have hhalf : (t / n : ℚ) = 1 / 2 := by
        rw [div_eq_iff hn'.ne']
        have : (2 * t : ℚ) = n := by exact_mod_cast h
        linarith
      rw [Nat.compare_eq_eq.2 h, hhalf]
      refine ⟨?_, ?_, iff_of_true rfl le_rfl, iff_of_false Bool.false_ne_true fun hne => hne.2 rfl⟩ <;>
        dsimp only [ExtendedMantissa.ofMantissaAndAccuracy] <;> linarith
    · have hhalf : 1 / 2 < (t / n : ℚ) := by
        rw [lt_div_iff₀ hn']
        have : (n : ℚ) < 2 * t := by exact_mod_cast h
        linarith
      rw [Nat.compare_eq_gt.2 h]
      refine ⟨?_, ?_, iff_of_true rfl ?_, iff_of_true rfl ⟨fun heq => ?_, fun heq => ?_⟩⟩ <;>
        dsimp only [ExtendedMantissa.ofMantissaAndAccuracy] at * <;> linarith

/-! ### The exponent of the result -/

theorem targetExponent_eq (t : ℤ) : Format.binary64.targetExponent t = max (t - 53) (-1074) := rfl

theorem lt_of_zpow_lt {m n : ℤ} (h : (2 : ℚ) ^ m < 2 ^ n) : m < n :=
  (zpow_lt_zpow_iff_right₀ one_lt_two).1 h

theorem two_zpow_add (e : ℤ) (k : ℕ) : (2 : ℚ) ^ (e + k) = 2 ^ k * 2 ^ e := by
  rw [zpow_add₀ two_ne_zero, zpow_natCast, mul_comm]

/-- A number below a double with a shorter interval there is shifted one place further. -/
theorem target_of_below {b : Binary} (hb : b.IsDouble) (hr : b.Catches r) {t : ℤ} (hlt : r < 2 ^ t)
    (hge : 2 ^ (t - 1) ≤ r ∨ t - 53 ≤ -1074) (hnarrow : b.narrowBelow = true)
    (hbelow : r < b.value) : max (t - 53) (-1074) = b.exponent - 1 := by
  have hpow : (0 : ℚ) < 2 ^ b.exponent := zpow_pos two_pos _
  obtain ⟨hmantissa, hexponent⟩ := hb.narrow.1 hnarrow
  have hlow := hr.low_le
  rw [Binary.low, hmantissa, if_pos hnarrow] at hlow
  rw [Binary.value, hmantissa] at hbelow
  have hupper : t - 1 < b.exponent + (52 : ℕ) ∨ t - 53 ≤ -1074 := by
    refine hge.imp_left fun hge => lt_of_zpow_lt ?_
    rw [two_zpow_add]
    calc (2 : ℚ) ^ (t - 1) ≤ r := hge
      _ < _ := hbelow
      _ = 2 ^ 52 * 2 ^ b.exponent := by norm_num
  have hlower : b.exponent + (51 : ℕ) < t := by
    refine lt_of_zpow_lt ?_
    rw [two_zpow_add]
    calc (2 : ℚ) ^ 51 * 2 ^ b.exponent ≤ _ := mul_le_mul_of_nonneg_right (by norm_num) hpow.le
      _ ≤ r := hlow
      _ < 2 ^ t := hlt
  omega

/-- Any other number in the interval of a double is shifted to the exponent of the double. -/
theorem target_of_not_below {b : Binary} (hb : b.IsDouble) (hr : b.Catches r) {t : ℤ}
    (hlt : r < 2 ^ t) (hge : 2 ^ (t - 1) ≤ r ∨ t - 53 ≤ -1074)
    (habove : b.narrowBelow = true → b.value ≤ r) : max (t - 53) (-1074) = b.exponent := by
  have hpow : (0 : ℚ) < 2 ^ b.exponent := zpow_pos two_pos _
  have hexponent := hb.low
  have hlow := hr.low_le
  have hhigh := hr.le_high
  unfold Binary.low at hlow
  unfold Binary.high at hhigh
  have hmantissa : (b.mantissa : ℚ) + 1 ≤ 0x20000000000000 := by exact_mod_cast hb.lt
  have hupper : t - 1 < b.exponent + (53 : ℕ) ∨ t - 53 ≤ -1074 := by
    refine hge.imp_left fun hge => lt_of_zpow_lt ?_
    rw [two_zpow_add]
    calc (2 : ℚ) ^ (t - 1) ≤ r := hge
      _ ≤ _ := hhigh
      _ < 2 ^ 53 * 2 ^ b.exponent := mul_lt_mul_of_pos_right (by linarith) hpow
  have hlower : b.exponent = -1074 ∨ b.exponent + (52 : ℕ) < t := by
    refine or_iff_not_imp_left.2 fun hne => lt_of_zpow_lt (lt_of_le_of_lt ?_ hlt)
    rw [two_zpow_add]
    have hfull := hb.full.resolve_right hne
    cases hnarrow : b.narrowBelow with
    | true =>
      refine le_trans ?_ (habove hnarrow)
      exact mul_le_mul_of_nonneg_right (by exact_mod_cast hfull) hpow.le
    | false =>
      -- the mantissa is not the shortest one, so half a place below it is still as long
      have hmantissa : 0x10000000000000 + 1 ≤ b.mantissa := by
        have hne : b.mantissa ≠ 0x10000000000000 := fun heq => by
          have hshort := hb.narrow.2 ⟨heq, by omega⟩
          rw [hnarrow] at hshort
          cases hshort
        omega
      refine le_trans (mul_le_mul_of_nonneg_right ?_ hpow.le) hlow
      have hcast : (0x10000000000000 : ℚ) + 1 ≤ b.mantissa := by exact_mod_cast hmantissa
      rw [hnarrow, if_neg Bool.false_ne_true]
      linarith
  omega

/-- A number in the interval of a double is shifted to the exponent of the double, but for one that is
below a double with a shorter interval there. -/
theorem target_cases {b : Binary} (hb : b.IsDouble) (hr : b.Catches r) {t : ℤ} (hlt : r < 2 ^ t)
    (hge : 2 ^ (t - 1) ≤ r ∨ t - 53 ≤ -1074) :
    max (t - 53) (-1074) = b.exponent ∧ (b.narrowBelow = true → b.value ≤ r) ∨
      max (t - 53) (-1074) = b.exponent - 1 ∧ b.narrowBelow = true ∧ r < b.value := by
  by_cases hbelow : b.narrowBelow = true ∧ r < b.value
  · exact .inr ⟨target_of_below hb hr hlt hge hbelow.1 hbelow.2, hbelow⟩
  · have habove (hnarrow : b.narrowBelow = true) : b.value ≤ r :=
      not_lt.1 fun hlt => hbelow ⟨hnarrow, hlt⟩
    exact .inl ⟨target_of_not_below hb hr hlt hge habove, habove⟩

/-! ### Rounding -/

/-- A result that is shifted, rounded, and shifted once more in case that it has become too long. -/
theorem roundWithAccuracy_of_shift {s : Sign} {m k f : ℕ} {e e₁ e₂ : ℤ} {accuracy : Accuracy}
    (hem : (shiftToTargetExponent Format.binary64 m e accuracy).1.roundedMantissa = k)
    (he : (shiftToTargetExponent Format.binary64 m e accuracy).2 = e₁)
    (hf : (shiftToTargetExponent Format.binary64 k e₁ .exact).1.mantissa = f)
    (he₂ : (shiftToTargetExponent Format.binary64 k e₁ .exact).2 = e₂) (hpos : 0 < f) :
    roundWithAccuracy Format.binary64 s m e accuracy = .finite s f e₂ hpos := by
  subst hem he hf he₂
  exact dif_neg hpos.ne'

/-- A mantissa that is not too long stays as it is. -/
theorem shift_of_lt {k : ℕ} (hk : k < 0x20000000000000) {e : ℤ} (he : -1074 ≤ e) :
    shiftToTargetExponent Format.binary64 k e .exact = (⟨k, false, false⟩, e) := by
  have hlog : k.log2 ≤ 52 := by
    rcases Nat.eq_zero_or_pos k with rfl | hpos
    · decide
    · exact Nat.lt_succ_iff.1 ((Nat.log2_lt hpos.ne').2 hk)
  have hshift : (Format.binary64.targetExponent (totalExponent k e) - e).toNat = 0 := by
    rw [targetExponent_eq, totalExponent]
    omega
  rw [shiftToTargetExponent, shiftToExponent, hshift]
  exact congrArg (_, ·) (add_zero e)

/-- A mantissa that has become one bit too long is halved. -/
theorem shift_of_eq {e : ℤ} (he : -1074 ≤ e) :
    shiftToTargetExponent Format.binary64 0x20000000000000 e .exact =
      (⟨0x10000000000000, false, false⟩, e + 1) := by
  have hlog : Nat.log2 0x20000000000000 = 53 := by decide
  have hshift : (Format.binary64.targetExponent (totalExponent 0x20000000000000 e) - e).toNat = 1 := by
    rw [targetExponent_eq, totalExponent, hlog]
    omega
  rw [shiftToTargetExponent, shiftToExponent, hshift]
  rfl

section Targets

variable {m : ℕ} {e t : ℤ} {accuracy : Accuracy}

theorem mantissa_ofMantissaAndAccuracy (m : ℕ) (accuracy : Accuracy) :
    (ExtendedMantissa.ofMantissaAndAccuracy m accuracy).mantissa = m := by
  unfold ExtendedMantissa.ofMantissaAndAccuracy
  split <;> rfl

/-- What a mantissa locates lies below the power of two that its total exponent stands for. -/
theorem Locates.lt_totalExponent (h : Locates (.ofMantissaAndAccuracy m accuracy) r) (e : ℤ) :
    r * 2 ^ e < 2 ^ totalExponent m e := by
  have hpow : (0 : ℚ) < 2 ^ e := zpow_pos two_pos _
  have hlt := h.lt
  rw [mantissa_ofMantissaAndAccuracy] at hlt
  have htotal : totalExponent m e = e + (m.log2 + 1 : ℕ) := by
    rw [totalExponent]
    push_cast
    ring
  rw [htotal, two_zpow_add]
  refine mul_lt_mul_of_pos_right (hlt.trans_le ?_) hpow
  exact_mod_cast Nat.lt_log2_self

/-- It does not lie below the power of two before that one, if there is a mantissa at all. -/
theorem Locates.le_totalExponent (h : Locates (.ofMantissaAndAccuracy m accuracy) r)
    (he : e ≤ max (totalExponent m e - 53) (-1074)) :
    (2 : ℚ) ^ (totalExponent m e - 1) ≤ r * 2 ^ e ∨ totalExponent m e - 53 ≤ -1074 := by
  have hpow : (0 : ℚ) < 2 ^ e := zpow_pos two_pos _
  have hle := h.le
  rw [mantissa_ofMantissaAndAccuracy] at hle
  rcases Nat.eq_zero_or_pos m with rfl | hpos
  · right
    rw [totalExponent, Nat.log2_zero] at he ⊢
    omega
  · left
    have hexponent : totalExponent m e - 1 = e + (m.log2 : ℕ) := by
      rw [totalExponent]
      ring
    rw [hexponent, two_zpow_add]
    refine mul_le_mul_of_nonneg_right (le_trans ?_ hle) hpow.le
    exact_mod_cast Nat.log2_self_le hpos.ne'

/-- A mantissa that is shifted to the exponent of the result locates the quotient. -/
theorem Locates.shiftToTarget (h : Locates (.ofMantissaAndAccuracy m accuracy) r) (he : e ≤ t)
    (ht : max (totalExponent m e - 53) (-1074) = t) :
    Locates (shiftToTargetExponent Format.binary64 m e accuracy).1 (r * 2 ^ e / 2 ^ t) ∧
      (shiftToTargetExponent Format.binary64 m e accuracy).2 = t := by
  have hpow : (0 : ℚ) < 2 ^ e := zpow_pos two_pos _
  have hexponent : t = e + (t - e).toNat := by omega
  rw [shiftToTargetExponent, shiftToExponent, targetExponent_eq, ht]
  refine ⟨?_, hexponent.symm⟩
  have hquotient : r * 2 ^ e / 2 ^ t = r / 2 ^ (t - e).toNat := by
    conv_lhs => rw [hexponent, two_zpow_add]
    exact mul_div_mul_right _ _ hpow.ne'
  rw [hquotient]
  exact h.shiftRight _

/-- A number that a double catches is not below the middle between the double and the one that would
be before it at the same exponent, if it is not below the double where that one is nearer. -/
theorem half_le_of_catches {b : Binary} (hb : b.Catches r)
    (hnarrow : b.narrowBelow = true → b.value ≤ r) :
    ((b.mantissa : ℚ) - 1 / 2) * 2 ^ b.exponent ≤ r ∧
      (b.mantissa % 2 = 1 → ((b.mantissa : ℚ) - 1 / 2) * 2 ^ b.exponent < r) := by
  have hpow : (0 : ℚ) < 2 ^ b.exponent := zpow_pos two_pos _
  cases hn : b.narrowBelow with
  | true =>
    have hlt : ((b.mantissa : ℚ) - 1 / 2) * 2 ^ b.exponent < r :=
      lt_of_lt_of_le (mul_lt_mul_of_pos_right (by linarith) hpow) (hnarrow hn)
    exact ⟨hlt.le, fun _ => hlt⟩
  | false =>
    have heq : b.low = ((b.mantissa : ℚ) - 1 / 2) * 2 ^ b.exponent := by
      rw [Binary.low, hn, if_neg Bool.false_ne_true]
    rw [← heq]
    exact ⟨hb.low_le, hb.low_lt⟩

/-- A number in the interval of a double is rounded to the double. -/
theorem roundWithAccuracy_eq {b : Binary} (hb : b.IsDouble) (s : Sign)
    (hloc : Locates (.ofMantissaAndAccuracy m accuracy) r) (hr : b.Catches (r * 2 ^ e))
    (he : e ≤ Format.binary64.targetExponent (totalExponent m e)) :
    roundWithAccuracy Format.binary64 s m e accuracy = b.unpacked s hb := by
  rw [targetExponent_eq] at he
  rcases target_cases hb hr (hloc.lt_totalExponent e) (hloc.le_totalExponent he) with
    ⟨htarget, hnarrow⟩ | ⟨htarget, hnarrow, hbelow⟩
  · obtain ⟨hlocated, hexponent⟩ := hloc.shiftToTarget (htarget ▸ he) htarget
    have hpow : (0 : ℚ) < 2 ^ b.exponent := zpow_pos two_pos _
    have hlow := half_le_of_catches hr hnarrow
    refine roundWithAccuracy_of_shift (hlocated.roundedMantissa_eq ?_ ?_ fun hodd => ⟨?_, ?_⟩)
      hexponent (congrArg (·.1.mantissa) (shift_of_lt hb.lt hb.low))
      (congrArg (·.2) (shift_of_lt hb.lt hb.low)) hb.pos
    · exact (le_div_iff₀ hpow).2 hlow.1
    · exact (div_le_iff₀ hpow).2 hr.le_high
    · exact (lt_div_iff₀ hpow).2 (hlow.2 hodd)
    · exact (div_lt_iff₀ hpow).2 (hr.lt_high hodd)
  · -- below the double the next one is at half the distance, so that the mantissa grows by a bit
    obtain ⟨hlocated, hexponent⟩ := hloc.shiftToTarget (htarget ▸ he) htarget
    obtain ⟨hmantissa, hlow⟩ := hb.narrow.1 hnarrow
    have hpow : (0 : ℚ) < 2 ^ (b.exponent - 1) := zpow_pos two_pos _
    have hdouble : (2 : ℚ) ^ b.exponent = 2 ^ (b.exponent - 1) * 2 := by
      rw [← zpow_add_one₀ two_ne_zero, sub_add_cancel]
    have hge := hr.low_le
    rw [Binary.low, hmantissa, if_pos hnarrow, hdouble] at hge
    rw [Binary.value, hmantissa, hdouble] at hbelow
    push_cast at hge hbelow
    have hmin : -1074 ≤ b.exponent - 1 := by omega
    have hpos : 0 < 0x10000000000000 := by decide
    have hround : (shiftToTargetExponent Format.binary64 m e accuracy).1.roundedMantissa =
        0x20000000000000 := by
      refine hlocated.roundedMantissa_eq ?_ ?_ fun hodd => absurd hodd (by decide)
      · rw [le_div_iff₀ hpow]
        push_cast
        linarith
      · rw [div_le_iff₀ hpow]
        push_cast
        linarith
    rw [roundWithAccuracy_of_shift hround hexponent (congrArg (·.1.mantissa) (shift_of_eq hmin))
      (congrArg (·.2) (shift_of_eq hmin)) hpos]
    exact Double.finite_congr hmantissa.symm (sub_add_cancel _ _)

end Targets

/-! ### Products and quotients -/

variable {b : Binary} {m n : ℕ} {e f : ℤ} {hm : 0 < m} {hn : 0 < n}

/-- A product is rounded to the double in whose interval it lies; it has to be long enough. -/
theorem mul_eq (hb : b.IsDouble) (hr : b.Catches (m * 2 ^ e * (n * 2 ^ f)))
    (hlong : 0x10000000000000 ≤ m * n) :
    UnpackedFloat.mul Format.binary64 (.finite .positive m e hm) (.finite .positive n f hn) =
      b.unpacked .positive hb := by
  have hlog : 52 ≤ (m * n).log2 := (Nat.le_log2 (by omega)).2 hlong
  refine roundWithAccuracy_eq hb .positive (locates_exact (m * n)) ?_ ?_
  · have hproduct : ((m * n : ℕ) : ℚ) * 2 ^ (e + f) = m * 2 ^ e * (n * 2 ^ f) := by
      rw [zpow_add₀ two_ne_zero]
      push_cast
      ring
    rw [hproduct]
    exact hr
  · rw [targetExponent_eq, totalExponent]
    omega

/-- A quotient is rounded to the double in whose interval it lies. -/
theorem div_eq (hb : b.IsDouble) (hr : b.Catches (m * 2 ^ e / (n * 2 ^ f))) :
    UnpackedFloat.div Format.binary64 (.finite .positive m e hm) (.finite .positive n f hn) =
      b.unpacked .positive hb := by
  generalize ht : min (e - f)
    (Format.binary64.targetExponent (totalExponent m e - totalExponent n f)) = t
  rw [targetExponent_eq, totalExponent, totalExponent] at ht
  obtain ⟨k, hk⟩ : ∃ k : ℕ, e = f + t + k := ⟨(e - f - t).toNat, by omega⟩
  have hdividend : m <<< (e - f - t).toNat = m * 2 ^ k := by
    rw [Nat.shiftLeft_eq, show (e - f - t).toNat = k by omega]
  show roundWithAccuracy Format.binary64 .positive _ _ _ = _
  rw [targetExponent_eq, totalExponent, totalExponent, ht, hdividend]
  refine roundWithAccuracy_eq hb .positive (locates_quotient _ hn) ?_ ?_
  · have hquotient : ((m * 2 ^ k : ℕ) : ℚ) / n * 2 ^ t = m * 2 ^ e / (n * 2 ^ f) := by
      have hn' : (n : ℚ) ≠ 0 := Nat.cast_ne_zero.2 hn.ne'
      rw [hk, two_zpow_add, zpow_add₀ two_ne_zero]
      push_cast
      field_simp
    rw [hquotient]
    exact hr
  · rw [targetExponent_eq, totalExponent]
    by_cases hsmall : t ≤ -1074
    · omega
    -- otherwise the dividend has been shifted far enough for a quotient of 53 bits
    have hlong : 0x10000000000000 ≤ m * 2 ^ k / n := by
      rw [Nat.le_div_iff_mul_le hn]
      calc 0x10000000000000 * n ≤ 2 ^ 52 * 2 ^ (n.log2 + 1) :=
            Nat.mul_le_mul (by norm_num) Nat.lt_log2_self.le
        _ = 2 ^ (n.log2 + 53) := by rw [← pow_add]; congr 1; omega
        _ ≤ 2 ^ (m.log2 + k) := Nat.pow_le_pow_right (by decide) (by omega)
        _ = 2 ^ m.log2 * 2 ^ k := pow_add _ _ _
        _ ≤ m * 2 ^ k := Nat.mul_le_mul_right _ (Nat.log2_self_le hm.ne')
    have hlog : 52 ≤ (m * 2 ^ k / n).log2 := (Nat.le_log2 (by omega)).2 hlong
    omega

end Rounding
end Rulebook
