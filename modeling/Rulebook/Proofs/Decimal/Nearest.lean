import Rulebook.Decimal.Reading
import Rulebook.Proofs.Decimal.Rounding

/-!
# The double nearest to a decimal

A decimal becomes a double by a multiplication or a division with a power of ten. Either way a decimal
in the interval of a double becomes this double: `Decimal.nearest_eq`. So integers of up to 53 bits
become doubles without a loss: `Decimal.value_ofInt`.
-/

namespace Rulebook

open Float.Model (Format UnpackedFloat totalExponent)
open Float.Model.UnpackedFloat
open Rounding

/-! ### Integers that are doubles -/

namespace Binary

variable {b : Binary}

/-- The double that is a natural number of up to 53 bits. -/
def ofNat (n : ℕ) : Binary :=
  ⟨n <<< (52 - n.log2), (n.log2 : ℤ) - 52, n <<< (52 - n.log2) == 0x10000000000000⟩

variable {n : ℕ}

theorem isDouble_ofNat (hpos : 0 < n) (hlt : n < 0x20000000000000) : (ofNat n).IsDouble := by
  have hlog : n.log2 < 53 := (Nat.log2_lt hpos.ne').2 hlt
  have hshift : n <<< (52 - n.log2) = n * 2 ^ (52 - n.log2) := Nat.shiftLeft_eq _ _
  have hfull : 0x10000000000000 ≤ n <<< (52 - n.log2) := by
    rw [hshift]
    calc 0x10000000000000 = 2 ^ n.log2 * 2 ^ (52 - n.log2) := by
          rw [← pow_add, Nat.add_sub_of_le (by omega)]
          rfl
      _ ≤ n * 2 ^ (52 - n.log2) := Nat.mul_le_mul_right _ (Nat.log2_self_le hpos.ne')
  refine ⟨?_, ?_, ?_, ?_, .inl hfull, ?_⟩ <;> dsimp only [ofNat]
  · omega
  · rw [hshift]
    calc n * 2 ^ (52 - n.log2) < 2 ^ (n.log2 + 1) * 2 ^ (52 - n.log2) :=
          Nat.mul_lt_mul_of_pos_right Nat.lt_log2_self (Nat.two_pow_pos _)
      _ = 0x20000000000000 := by
          rw [← pow_add, show n.log2 + 1 + (52 - n.log2) = 53 by omega]
          rfl
  · omega
  · omega
  · rw [beq_iff_eq]
    omega

theorem value_ofNat (hpos : 0 < n) (hlt : n < 0x20000000000000) : (ofNat n).value = n := by
  have hlog : n.log2 < 53 := (Nat.log2_lt hpos.ne').2 hlt
  have hexponent : (n.log2 : ℤ) - 52 = -((52 - n.log2 : ℕ) : ℤ) := by omega
  rw [value, ofNat, hexponent, zpow_neg, zpow_natCast, Nat.shiftLeft_eq]
  push_cast
  exact mul_inv_cancel_right₀ (pow_ne_zero _ two_ne_zero) _

/-- A number between two neighbours with the same exponent lies in the interval of the nearer one; a
number in the middle lies in the interval of the even one. -/
theorem exists_catches_of_between {m : ℕ} {e : ℤ} {q : ℚ} (hm : 0x10000000000000 ≤ m)
    (hlt : m < 0x20000000000000) (hlow : -1074 < e) (hhigh : e < 971) (hle : m * 2 ^ e ≤ q)
    (hq : q < (m + 1) * 2 ^ e) : ∃ b : Binary, b.IsDouble ∧ b.Catches q := by
  have hpos : 0 < m := by omega
  by_cases hnear : q < (m + 1 / 2) * 2 ^ e ∨ q = (m + 1 / 2) * 2 ^ e ∧ m % 2 = 0
  · -- the lower neighbour
    refine ⟨⟨m, e, m == 0x10000000000000⟩, ⟨hpos, hlt, hlow.le, hhigh.le, .inl hm, ?_⟩, ?_⟩
    · rw [beq_iff_eq]
      exact ⟨fun h => ⟨h, hlow⟩, And.left⟩
    · have hbelow : low ⟨m, e, m == 0x10000000000000⟩ < q := (low_lt_value _).trans_le hle
      refine ⟨hbelow.le, ?_, fun _ => hbelow, fun hodd => ?_⟩
      · exact hnear.elim le_of_lt fun h => h.1.le
      · exact hnear.resolve_right fun h => by have := h.2; dsimp only at hodd; omega
  · -- the upper neighbour, whose exponent may be greater
    rw [not_or, not_lt, not_and] at hnear
    obtain ⟨hfar, htie⟩ := hnear
    obtain ⟨b, hb, hvalue, hends, hodd⟩ : ∃ b : Binary, b.IsDouble ∧
        b.value = (m + 1) * 2 ^ e ∧ b.low = (m + 1 / 2) * 2 ^ e ∧
        (b.mantissa % 2 = 1 → m % 2 = 0) := by
      -- the mantissa may overflow into the next exponent
      by_cases hcarry : m + 1 = 0x20000000000000
      · have hmq : (m : ℚ) = 0x1fffffffffffff := by exact_mod_cast Nat.succ_injective hcarry
        refine ⟨⟨0x10000000000000, e + 1, true⟩, ⟨Nat.succ_pos _, ?_, ?_, ?_, .inl le_rfl, ?_⟩,
          ?_, ?_, ?_⟩
        · show 0x10000000000000 < 0x20000000000000
          decide
        · show -1074 ≤ e + 1
          omega
        · exact hhigh
        · exact iff_of_true rfl ⟨rfl, by show -1074 < e + 1; omega⟩
        · rw [value, zpow_add_one₀ two_ne_zero, hmq]
          push_cast
          ring
        · rw [low, zpow_add_one₀ two_ne_zero, hmq, if_pos rfl]
          push_cast
          ring
        · intro hodd
          have heven : 0x10000000000000 % 2 = 1 := hodd
          exact absurd heven (by decide)
      · refine ⟨⟨m + 1, e, false⟩, ⟨Nat.succ_pos m, ?_, hlow.le, hhigh.le, .inl ?_, ?_⟩, ?_, ?_, ?_⟩
        · show m + 1 < 0x20000000000000
          omega
        · show 0x10000000000000 ≤ m + 1
          omega
        · exact iff_of_false Bool.false_ne_true fun h => by have := h.1; dsimp only at this; omega
        · rw [value, Nat.cast_succ]
        · rw [low, if_neg Bool.false_ne_true, Nat.cast_succ]
          ring
        · intro hodd
          dsimp only at hodd
          omega
    have habove : q < b.high := (hvalue ▸ hq).trans (value_lt_high b)
    refine ⟨b, hb, hends ▸ hfar, habove.le, fun h => ?_, fun _ => habove⟩
    rw [hends]
    exact lt_of_le_of_ne hfar fun heq => htie heq.symm (hodd h)

/-- Every natural number in the range of doubles is rounded to a double. -/
theorem exists_catches (hpos : 0 < n) (hlog : n.log2 < 1023) :
    ∃ b : Binary, b.IsDouble ∧ b.Catches n := by
  rcases lt_or_ge n 0x20000000000000 with hlt | hge
  · refine ⟨_, isDouble_ofNat hpos hlt, ?_⟩
    have hself := (ofNat n).catches_value
    rwa [value_ofNat hpos hlt] at hself
  · have hlarge : 53 ≤ n.log2 := (Nat.le_log2 hpos.ne').2 hge
    obtain ⟨k, hk⟩ : ∃ k, n.log2 = 52 + k := ⟨n.log2 - 52, by omega⟩
    have hpow : 0 < 2 ^ k := Nat.two_pow_pos k
    have hleast : 2 ^ 52 * 2 ^ k ≤ n := by
      rw [← pow_add, ← hk]
      exact Nat.log2_self_le hpos.ne'
    have hmost : n < 2 ^ 53 * 2 ^ k := by
      rw [← pow_add, show 53 + k = n.log2 + 1 by omega]
      exact Nat.lt_log2_self
    refine exists_catches_of_between (m := n / 2 ^ k) (e := k) ?_ ?_ (by omega) (by omega) ?_ ?_
    · exact (Nat.le_div_iff_mul_le hpow).2 hleast
    · exact (Nat.div_lt_iff_lt_mul hpow).2 hmost
    · exact_mod_cast Nat.div_mul_le_self n (2 ^ k)
    · rw [mul_comm]
      exact_mod_cast Nat.lt_mul_div_succ n hpow

end Binary

namespace Double

/-- A natural number in the interval of a double is rounded to the double. -/
theorem round_eq {b : Binary} (hb : b.IsDouble) (s : Sign) {n : ℕ} (hpos : 0 < n)
    (hr : b.Catches n) : UnpackedFloat.round Format.binary64 s n 0 = b.unpacked s hb := by
  rw [UnpackedFloat.round, decreaseExponent]
  generalize hk : (0 - Format.binary64.targetExponent (totalExponent n 0)).toNat = k
  rw [targetExponent_eq, totalExponent] at hk
  dsimp only
  rw [Nat.shiftLeft_eq]
  refine roundWithAccuracy_eq hb s (locates_exact _) ?_ ?_
  · have hvalue : ((n * 2 ^ k : ℕ) : ℚ) * 2 ^ (0 - (k : ℤ)) = n := by
      rw [zero_sub, zpow_neg, zpow_natCast]
      push_cast
      exact mul_inv_cancel_right₀ (pow_ne_zero _ two_ne_zero) _
    rw [hvalue]
    exact hr
  · have hlog : n.log2 + k ≤ (n * 2 ^ k).log2 := by
      refine (Nat.le_log2 (Nat.mul_pos hpos (Nat.two_pow_pos k)).ne').2 ?_
      rw [pow_add]
      exact Nat.mul_le_mul_right _ (Nat.log2_self_le hpos.ne')
    rw [targetExponent_eq, totalExponent]
    omega

theorem toFloat_toUInt64 {n : ℕ} (hpos : 0 < n) (hlt : n < 0x20000000000000) :
    n.toUInt64.toFloat = (Binary.ofNat n).toFloat .positive (Binary.isDouble_ofNat hpos hlt) := by
  have hword : n.toUInt64.toNat = n :=
    UInt64.toNat_ofNat_of_lt (by show n < 18446744073709551616; omega)
  have hcatches : (Binary.ofNat n).Catches n := by
    have hself := (Binary.ofNat n).catches_value
    rwa [Binary.value_ofNat hpos hlt] at hself
  have hsign : compare (n : ℤ) 0 = .gt := Int.compare_eq_gt.2 (by omega)
  show Float.ofModel (.pack (UnpackedFloat.normalize Format.binary64 (n.toUInt64.toNat : ℤ) 0
    .positive)) = _
  rw [hword, UnpackedFloat.normalize, hsign]
  dsimp only
  rw [Int.toNat_natCast, round_eq (Binary.isDouble_ofNat hpos hlt) .positive hpos hcatches]
  rfl

/-- The powers of ten that are doubles. -/
theorem exists_powerOfTen {e : ℕ} (he : e ≤ 22) : ∃ (b : Binary) (hb : b.IsDouble),
    getElem Float.exactlyRepresentablePowersOfTen e (by
      simp [Float.exactlyRepresentablePowersOfTen]; omega) = b.toFloat .positive hb ∧
      b.value = 10 ^ e ∧ 0x10000000000000 ≤ b.mantissa := by
  have hall : ∀ i : Fin 23,
      let x := getElem Float.exactlyRepresentablePowersOfTen i.val (by
        simp [Float.exactlyRepresentablePowersOfTen])
      let b := Binary.ofBits x.toBits
      x.isFinite = true ∧ (x == 0.0) = false ∧ (x.toBits >>> 63 == 1) = false ∧
        0x10000000000000 ≤ b.mantissa ∧
        b.mantissa * 2 ^ b.exponent.toNat = 10 ^ i.val * 2 ^ (-b.exponent).toNat := by
    decide +kernel
  obtain ⟨hfinite, hne, hsign, hlong, hvalue⟩ := hall ⟨e, Nat.lt_succ_iff.2 he⟩
  dsimp only at hfinite hne hsign hlong hvalue
  generalize getElem Float.exactlyRepresentablePowersOfTen e _ = x at *
  rcases unpack_cases hfinite with ⟨s, hs⟩ | ⟨s, b, hb, hs⟩
  · rw [eq_zero_of_unpack hs] at hne
    cases s <;> exact absurd hne (by decide)
  · have hx := eq_toFloat_of_unpack hs
    have hparts := Binary.parts_toFloat hb (s := s)
    rw [← hx] at hparts
    rw [hparts.2] at hsign
    rw [hparts.1] at hlong hvalue
    refine ⟨b, hb, ?_, ?_, hlong⟩
    · rw [hx]
      cases s
      · cases hsign
      · rfl
    · have hpow : (2 : ℚ) ^ (-b.exponent).toNat ≠ 0 := pow_ne_zero _ two_ne_zero
      rw [Binary.value, Binary.zpow_eq_div, ← mul_div_assoc, div_eq_iff hpow]
      exact_mod_cast hvalue

variable {b : Binary} {n : ℕ}

/-- A decimal with an exponent that is not extreme is rounded to the double in whose interval it lies. -/
theorem ofScientific_unpacked_eq (hb : b.IsDouble) {e : ℤ} (hpos : 0 < n)
    (hr : b.Catches (n * 10 ^ e)) (hlow : -((2048 : ℤ) + n.log2) ≤ e) (hhigh : e ≤ 2048) :
    UnpackedFloat.ofScientific Format.binary64 n e = b.unpacked .positive hb := by
  have hcapacity : (2 : ℤ) ^ Format.binary64.exponentBits = 2048 := rfl
  have hbits : Format.binary64.mantissaBits = 53 := rfl
  rw [UnpackedFloat.ofScientific, dif_neg hpos.ne', if_neg (by rw [hcapacity]; omega),
    if_neg (by rw [hcapacity]; omega)]
  split
  · rename_i he
    lift e to ℕ using he
    refine mul_eq hb ?_ ?_
    · have hvalue : ((n <<< Format.binary64.mantissaBits : ℕ) : ℚ) *
          2 ^ (-(Format.binary64.mantissaBits : ℤ)) * (((10 ^ (e : ℤ).toNat : ℕ) : ℚ) * 2 ^ (0 : ℤ)) =
            n * 10 ^ (e : ℤ) := by
        rw [hbits, Nat.shiftLeft_eq, Int.toNat_natCast, zpow_neg, zpow_natCast, zpow_natCast]
        push_cast
        field_simp
        norm_num
      rw [hvalue]
      exact hr
    · rw [hbits, Nat.shiftLeft_eq]
      calc 0x10000000000000 ≤ 1 * 2 ^ 53 * 1 := by norm_num
        _ ≤ n * 2 ^ 53 * 10 ^ (e : ℤ).toNat :=
          Nat.mul_le_mul (Nat.mul_le_mul_right _ hpos) (Nat.pow_pos (by decide))
  · rename_i he
    refine div_eq hb ?_
    have hvalue : (n : ℚ) * 2 ^ (0 : ℤ) / (((10 ^ (-e).toNat : ℕ) : ℚ) * 2 ^ (0 : ℤ)) =
        n * 10 ^ e := by
      rw [Binary.zpow_eq_div 10 e, show e.toNat = 0 by omega]
      push_cast
      simp [div_eq_mul_inv]
    rw [hvalue]
    exact hr

theorem ofScientific_eq (hb : b.IsDouble) {negative : Bool} {k : ℕ} {e : ℤ}
    (he : (if negative then Int.negOfNat k else Int.ofNat k) = e) (hpos : 0 < n)
    (hr : b.Catches (n * 10 ^ e)) (hlow : -((2048 : ℤ) + n.log2) ≤ e) (hhigh : e ≤ 2048) :
    Float.ofScientific n negative k = b.toFloat .positive hb := by
  unfold Float.ofScientific
  split
  · -- both numbers are doubles, so a single operation rounds
    rename_i hexact
    obtain ⟨c, hc, hpower, hvalue, hlong⟩ := exists_powerOfTen hexact.2
    have hn := Binary.isDouble_ofNat hpos hexact.1
    have hnumber := Binary.value_ofNat hpos hexact.1
    dsimp only
    rw [toFloat_toUInt64 hpos hexact.1, hpower]
    cases negative with
    | false =>
      have hproduct : b.Catches ((Binary.ofNat n).value * c.value) := by
        rw [hnumber, hvalue]
        rwa [← he, if_neg Bool.false_ne_true, Int.ofNat_eq_natCast, zpow_natCast] at hr
      show Float.ofModel (.pack (UnpackedFloat.mul Format.binary64
        ((Binary.ofNat n).toFloat .positive hn).toModel.unpack
        (c.toFloat .positive hc).toModel.unpack)) = _
      rw [Binary.unpack_toFloat, Binary.unpack_toFloat, Binary.unpacked, Binary.unpacked,
        mul_eq hb hproduct (hlong.trans (Nat.le_mul_of_pos_left _ hn.pos))]
      rfl
    | true =>
      have hquotient : b.Catches ((Binary.ofNat n).value / c.value) := by
        rw [hnumber, hvalue]
        rwa [← he, if_pos rfl, Int.negOfNat_eq, Int.ofNat_eq_natCast, zpow_neg, zpow_natCast,
          ← div_eq_mul_inv] at hr
      show Float.ofModel (.pack (UnpackedFloat.div Format.binary64
        ((Binary.ofNat n).toFloat .positive hn).toModel.unpack
        (c.toFloat .positive hc).toModel.unpack)) = _
      rw [Binary.unpack_toFloat, Binary.unpack_toFloat, Binary.unpacked, Binary.unpacked,
        div_eq hb hquotient]
      rfl
  · dsimp only
    rw [he, Float.Model.ofScientific, ofScientific_unpacked_eq hb hpos hr hlow hhigh]
    rfl

/-! ### Numbers stay numbers -/

/-- A pattern with another exponent than the last one stands for a number, and so does the pattern of an
infinity. -/
theorem isNaN_unpack_packComponents (s : Sign) {e : BitVec 11} {m : BitVec 52}
    (h : e ≠ -1#11 ∨ m = 0#52) :
    (unpack Format.binary64 (packComponents Format.binary64 s e m)).isNaN = false := by
  rw [unpack]
  simp only [unpackExponent_packComponents, unpackMantissa_packComponents,
    unpackSign_packComponents]
  split
  · rw [if_pos (h.resolve_left (not_not_intro ‹_›))]
    rfl
  · split
    · split <;> rfl
    · rfl

/-- What is put together from a number is a number. -/
theorem isNaN_unpack_pack {u : UnpackedFloat} (h : u.isNaN = false) :
    (unpack Format.binary64 (UnpackedFloat.pack Format.binary64 u)).isNaN = false := by
  cases u with
  | notANumber => cases h
  | infinity s => exact isNaN_unpack_packComponents s (.inr rfl)
  | zero s => exact isNaN_unpack_packComponents s (.inr rfl)
  | finite s m e hm =>
    rw [UnpackedFloat.pack]
    dsimp only
    split
    · exact isNaN_unpack_packComponents s (.inr rfl)
    · rename_i hcapacity
      split
      · refine isNaN_unpack_packComponents s (.inl fun hlast => ?_)
        have hbiased := congrArg BitVec.toNat hlast
        rw [BitVec.toNat_ofNat] at hbiased
        change ¬ 2048 ≤ _ at hcapacity
        change _ % 2048 = 2047 at hbiased
        omega
      · exact isNaN_unpack_packComponents s (.inl (by decide))

theorem isNaN_roundWithAccuracy (s : Sign) (m : ℕ) (e : ℤ) (accuracy : Accuracy) :
    (roundWithAccuracy Format.binary64 s m e accuracy).isNaN = false := by
  rw [roundWithAccuracy]
  dsimp only
  split <;> rfl

theorem isNaN_mul {s t : Sign} {m n : ℕ} {e f : ℤ} {hm : 0 < m} {hn : 0 < n} :
    (UnpackedFloat.mul Format.binary64 (.finite s m e hm) (.finite t n f hn)).isNaN = false :=
  isNaN_roundWithAccuracy _ _ _ _

theorem isNaN_div {s t : Sign} {m n : ℕ} {e f : ℤ} {hm : 0 < m} {hn : 0 < n} :
    (UnpackedFloat.div Format.binary64 (.finite s m e hm) (.finite t n f hn)).isNaN = false :=
  isNaN_roundWithAccuracy _ _ _ _

/-- The double of a decimal is a number. -/
theorem isNaN_ofScientific {n : ℕ} (hpos : 0 < n) (negative : Bool) (k : ℕ) :
    (Float.ofScientific n negative k).isNaN = false := by
  unfold Float.ofScientific
  split
  · rename_i hexact
    obtain ⟨c, hc, hpower, -⟩ := exists_powerOfTen hexact.2
    have hn := Binary.isDouble_ofNat hpos hexact.1
    dsimp only
    rw [toFloat_toUInt64 hpos hexact.1, hpower]
    cases negative with
    | false =>
      refine isNaN_unpack_pack (u := UnpackedFloat.mul Format.binary64
        ((Binary.ofNat n).toFloat .positive hn).toModel.unpack
        (c.toFloat .positive hc).toModel.unpack) ?_
      rw [Binary.unpack_toFloat, Binary.unpack_toFloat]
      exact isNaN_mul
    | true =>
      refine isNaN_unpack_pack (u := UnpackedFloat.div Format.binary64
        ((Binary.ofNat n).toFloat .positive hn).toModel.unpack
        (c.toFloat .positive hc).toModel.unpack) ?_
      rw [Binary.unpack_toFloat, Binary.unpack_toFloat]
      exact isNaN_div
  · dsimp only
    generalize (if negative then Int.negOfNat k else Int.ofNat k) = e
    refine isNaN_unpack_pack (u := UnpackedFloat.ofScientific Format.binary64 n e) ?_
    rw [UnpackedFloat.ofScientific]
    repeat' split
    · rfl
    · rfl
    · rfl
    · exact isNaN_mul
    · exact isNaN_div

end Double

namespace Decimal

/-- The bounds that the number of digits gives. -/
theorem length_toDigits_bounds {n : ℕ} (hpos : 0 < n) :
    10 ^ ((Nat.toDigits 10 n).length - 1) ≤ n ∧ n < 10 ^ (Nat.toDigits 10 n).length := by
  have hlength : 0 < (Nat.toDigits 10 n).length := Nat.length_toDigits_pos
  refine ⟨?_, (Nat.length_toDigits_le_iff (by decide) hlength).1 le_rfl⟩
  by_cases hone : (Nat.toDigits 10 n).length = 1
  · rw [hone]
    exact hpos
  · refine Nat.le_of_not_lt fun hlt => ?_
    have := (Nat.length_toDigits_le_iff (by decide) (by omega)).2 hlt
    omega

theorem two_pow_lt_ten_pow : (2 : ℚ) ^ 1075 < 10 ^ 340 :=
  calc (2 : ℚ) ^ 1075 = (2 ^ 215) ^ 5 := by rw [← pow_mul]
    _ < (10 ^ 68) ^ 5 := pow_lt_pow_left₀ (by norm_num) (by positivity) (by decide)
    _ = 10 ^ 340 := by rw [← pow_mul]

/-- The intervals of all positive doubles lie between `10 ^ -340` and `10 ^ 340`. -/
theorem ten_lt_low {b : Binary} (hb : b.IsDouble) : (10 : ℚ) ^ (-340 : ℤ) < b.low := by
  have hmantissa : (1 : ℚ) ≤ b.mantissa := by exact_mod_cast hb.pos
  have hhalf : (2 ^ (-1 : ℤ) : ℚ) ≤ b.mantissa - if b.narrowBelow then 1 / 4 else 1 / 2 := by
    split <;> norm_num <;> linarith
  calc (10 : ℚ) ^ (-340 : ℤ) < 2 ^ (-1075 : ℤ) := by
        rw [zpow_neg, zpow_neg]
        exact (inv_lt_inv₀ (by positivity) (by positivity)).2 two_pow_lt_ten_pow
    _ = 2 ^ (-1 : ℤ) * 2 ^ (-1074 : ℤ) := by rw [← zpow_add₀ two_ne_zero]; rfl
    _ ≤ 2 ^ (-1 : ℤ) * 2 ^ b.exponent :=
        mul_le_mul_of_nonneg_left (zpow_le_zpow_right₀ one_le_two hb.low) (by norm_num)
    _ ≤ b.low := mul_le_mul_of_nonneg_right hhalf (zpow_pos two_pos _).le

theorem high_lt_ten {b : Binary} (hb : b.IsDouble) : b.high < (10 : ℚ) ^ (340 : ℤ) := by
  have hmantissa : (b.mantissa : ℚ) + 1 ≤ 0x20000000000000 := by exact_mod_cast hb.lt
  calc b.high ≤ 2 ^ 53 * 2 ^ b.exponent :=
        mul_le_mul_of_nonneg_right (by norm_num; linarith) (zpow_pos two_pos _).le
    _ = 2 ^ (b.exponent + (53 : ℕ)) := (two_zpow_add _ _).symm
    _ ≤ 2 ^ (1075 : ℤ) := zpow_le_zpow_right₀ one_le_two (by have := hb.high; omega)
    _ < 10 ^ (340 : ℤ) := two_pow_lt_ten_pow

/-- A decimal in the interval of a double becomes this double. -/
theorem nearest_eq {b : Binary} (hb : b.IsDouble) {d : Decimal} (hr : b.Catches d.value) :
    nearest d.digits d.exponent = b.toFloat .positive hb := by
  have hlow := (ten_lt_low hb).trans_le hr.low_le
  have hhigh := hr.le_high.trans_lt (high_lt_ten hb)
  rw [value] at hlow hhigh hr
  have hpos : 0 < d.digits := by
    refine Nat.pos_of_ne_zero fun hzero => ?_
    rw [hzero, Nat.cast_zero, zero_mul] at hlow
    exact absurd hlow (by norm_num)
  obtain ⟨hleast, hmost⟩ := length_toDigits_bounds hpos
  have hlength : 0 < (Nat.toDigits 10 d.digits).length := Nat.length_toDigits_pos
  generalize hsize : (Nat.toDigits 10 d.digits).length = size at hleast hmost hlength
  have hpow : (0 : ℚ) < 10 ^ d.exponent := zpow_pos (by norm_num) _
  have hten {m n : ℤ} (h : (10 : ℚ) ^ m < 10 ^ n) : m < n :=
    (zpow_lt_zpow_iff_right₀ (by norm_num)).1 h
  have hupper : d.exponent + ((size - 1 : ℕ) : ℤ) < 340 := by
    refine hten (lt_of_le_of_lt ?_ hhigh)
    rw [zpow_add₀ (by norm_num), zpow_natCast, mul_comm]
    exact mul_le_mul_of_nonneg_right (by exact_mod_cast hleast) hpow.le
  have hlower : -340 < d.exponent + (size : ℤ) := by
    refine hten (hlow.trans ?_)
    rw [zpow_add₀ (by norm_num), zpow_natCast, mul_comm]
    exact mul_lt_mul_of_pos_left (by exact_mod_cast hmost) hpow
  have hlog : size - 1 ≤ d.digits.log2 :=
    (Nat.le_log2 hpos.ne').2 ((Nat.pow_le_pow_left (by decide) _).trans hleast)
  unfold nearest
  dsimp only
  rw [hsize, if_neg hpos.ne', if_neg (by omega), if_neg (by omega)]
  split
  · refine Double.ofScientific_eq hb ?_ hpos hr (by omega) (by omega)
    exact Int.toNat_of_nonneg ‹_›
  · refine Double.ofScientific_eq hb ?_ hpos hr (by omega) (by omega)
    rw [if_pos rfl, Int.negOfNat_eq, Int.ofNat_eq_natCast]
    omega

theorem nearestSigned_eq {b : Binary} (hb : b.IsDouble) {d : Decimal} (hr : b.Catches d.value)
    (negative : Bool) : nearestSigned negative d.digits d.exponent =
      b.toFloat (if negative then .negative else .positive) hb := by
  rw [nearestSigned, nearest_eq hb hr]
  cases negative with
  | false => rfl
  | true => exact Binary.neg_toFloat hb

/-- The double of an integer is the double in whose interval the integer lies. -/
theorem value_ofInt_of_catches {n : ℤ} {b : Binary} (hb : b.IsDouble) (hr : b.Catches n.natAbs) :
    Double.value (ofInt n) = some (.ofRat (if n < 0 then -b.value else b.value)) := by
  have hcatches : b.Catches (⟨n.natAbs, 0⟩ : Decimal).value := by
    rw [value, zpow_zero, mul_one]
    exact hr
  rw [ofInt, nearestSigned_eq hb hcatches, Double.value, Binary.unpack_toFloat, Binary.unpacked,
    Double.number, Binary.value]
  by_cases hneg : n < 0
  · simp [hneg, Sign.apply]
  · simp [hneg, Sign.apply]

/-- The double of an integer of up to 53 bits is this integer. -/
theorem value_ofInt {n : ℤ} (h : n.natAbs ≤ 0x20000000000000) :
    Double.value (ofInt n) = some (.ofRat n) := by
  rcases eq_or_ne n 0 with rfl | hne
  · rfl
  obtain ⟨b, hb, hvalue⟩ : ∃ b : Binary, b.IsDouble ∧ b.value = n.natAbs := by
    rcases h.lt_or_eq with hlt | heq
    · have hpos : 0 < n.natAbs := Int.natAbs_pos.2 hne
      exact ⟨_, Binary.isDouble_ofNat hpos hlt, Binary.value_ofNat hpos hlt⟩
    · refine ⟨⟨0x10000000000000, 1, true⟩, ⟨?_, ?_, ?_, ?_, ?_, ?_⟩, ?_⟩ <;> try decide
      rw [heq, Binary.value]
      norm_num
  rw [value_ofInt_of_catches hb (hvalue ▸ b.catches_value), hvalue]
  split
  · rw [Nat.cast_natAbs, abs_of_neg ‹_›]
    simp
  · rw [Nat.cast_natAbs, abs_of_nonneg (not_lt.1 ‹_›)]

/-- The double of an integer in the range of doubles is finite. -/
theorem exists_value_ofInt {n : ℤ} (h : n.natAbs.log2 < 1023) :
    ∃ q, Double.value (ofInt n) = some (.ofRat q) := by
  rcases eq_or_ne n 0 with rfl | hne
  · exact ⟨_, value_ofInt (by decide)⟩
  · obtain ⟨b, hb, hr⟩ := Binary.exists_catches (Int.natAbs_pos.2 hne) h
    exact ⟨_, value_ofInt_of_catches hb hr⟩

theorem isNaN_nearest (digits : ℕ) (exponent : ℤ) : (nearest digits exponent).isNaN = false := by
  unfold nearest
  dsimp only
  repeat' split
  · decide
  · decide
  · decide
  · exact Double.isNaN_ofScientific (Nat.pos_of_ne_zero ‹_›) _ _
  · exact Double.isNaN_ofScientific (Nat.pos_of_ne_zero ‹_›) _ _

/-- What is read from digits is a number. -/
theorem isNaN_nearestSigned (negative : Bool) (digits : ℕ) (exponent : ℤ) :
    (nearestSigned negative digits exponent).isNaN = false := by
  have h := isNaN_nearest digits exponent
  rw [nearestSigned]
  generalize nearest digits exponent = x at h
  cases negative with
  | false => exact h
  | true =>
    refine Double.isNaN_unpack_pack (u := x.toModel.unpack.neg) ?_
    change x.toModel.unpack.isNaN = false at h
    cases hx : x.toModel.unpack with
    | notANumber =>
      rw [hx] at h
      cases h
    | _ => rfl

end Decimal

end Rulebook
