import Rulebook.Proofs.Decimal.Doubles

/-!
# The numbers that doubles and decimals are

Doubles, and decimals with them, are rational numbers; the infinities stand at both ends. Doubles are
compared as these numbers: `Double.lt_iff`. A double stands for the interval of the numbers that round
to it, and `Binary.readsBack` finds the decimals in that interval: `Binary.readsBack_iff`.
-/

namespace Rulebook

open Float.Model (Format UnpackedFloat)
open Float.Model.UnpackedFloat

/-- The number that a mantissa and an exponent are. -/
def Binary.value (b : Binary) : ℚ := b.mantissa * 2 ^ b.exponent

/-- The number that a decimal is. -/
def Decimal.value (d : Decimal) : ℚ := d.digits * 10 ^ d.exponent

namespace Binary

variable {b c : Binary}

/-- A greater exponent outweighs all mantissas. -/
theorem IsDouble.value_lt_of_exponent_lt (hb : b.IsDouble) (hc : c.IsDouble)
    (h : b.exponent < c.exponent) : b.value < c.value := by
  have hfull : (0x10000000000000 : ℚ) ≤ c.mantissa := by
    have hlow := hb.low
    exact_mod_cast hc.full.resolve_right (by omega)
  have hlt : (b.mantissa : ℚ) < 0x20000000000000 := by exact_mod_cast hb.lt
  calc b.value < 0x20000000000000 * 2 ^ b.exponent :=
        mul_lt_mul_of_pos_right hlt (zpow_pos two_pos _)
    _ = 0x10000000000000 * 2 ^ (b.exponent + 1) := by
        rw [zpow_add_one₀ two_ne_zero]
        ring
    _ ≤ 0x10000000000000 * 2 ^ c.exponent :=
        mul_le_mul_of_nonneg_left (zpow_le_zpow_right₀ one_le_two h) (by norm_num)
    _ ≤ c.value := mul_le_mul_of_nonneg_right hfull (zpow_pos two_pos _).le

/-- Doubles are ordered by their exponents and then by their mantissas. -/
theorem IsDouble.value_lt_iff (hb : b.IsDouble) (hc : c.IsDouble) : b.value < c.value ↔
    b.exponent < c.exponent ∨ b.exponent = c.exponent ∧ b.mantissa < c.mantissa := by
  rcases lt_trichotomy b.exponent c.exponent with h | h | h
  · exact iff_of_true (hb.value_lt_of_exponent_lt hc h) (.inl h)
  · have hpow : (0 : ℚ) < 2 ^ c.exponent := zpow_pos two_pos _
    rw [value, value, h, mul_lt_mul_iff_left₀ hpow, Nat.cast_lt]
    simp
  · refine iff_of_false (hc.value_lt_of_exponent_lt hb h).not_gt ?_
    omega

end Binary

/-! ### Comparing doubles -/

/-- The rational numbers with the infinities at both ends. -/
abbrev Extended := WithBot (WithTop ℚ)

namespace Extended

/-- A rational number as an extended one. -/
def ofRat (q : ℚ) : Extended := ((q : WithTop ℚ) : WithBot (WithTop ℚ))

@[simp] theorem ofRat_lt_ofRat {p q : ℚ} : ofRat p < ofRat q ↔ p < q := by
  rw [ofRat, ofRat, WithBot.coe_lt_coe, WithTop.coe_lt_coe]

@[simp] theorem bot_lt_ofRat (q : ℚ) : ⊥ < ofRat q := WithBot.bot_lt_coe _

@[simp] theorem ofRat_lt_top (q : ℚ) : ofRat q < ⊤ := WithBot.coe_lt_coe.2 (WithTop.coe_lt_top q)

end Extended

open Extended

namespace Double

/-- The number that an unpacked double is; none if it is not a number. -/
def number : UnpackedFloat → Option Extended
  | .notANumber => none
  | .infinity .positive => some ⊤
  | .infinity .negative => some ⊥
  | .zero _ => some (ofRat 0)
  | .finite s m e _ => some (ofRat ((s.apply m : ℤ) * 2 ^ e))

/-- The number that a double is; none if it is not a number. -/
def value (x : Float) : Option Extended := number x.toModel.unpack

/-- Whether an unpacked double has the mantissa and the exponent of a double. -/
def Canonical : UnpackedFloat → Prop
  | .finite _ m e _ => ∃ b : Binary, b.IsDouble ∧ b.mantissa = m ∧ b.exponent = e
  | _ => True

theorem canonical_unpack (x : Float) : Canonical x.toModel.unpack := by
  cases h : x.isFinite with
  | true =>
    rcases unpack_cases h with ⟨s, hs⟩ | ⟨s, b, hb, hparts⟩
    · rw [hs]
      trivial
    · rw [hparts]
      exact ⟨b, hb, rfl, rfl⟩
  | false =>
    change x.toModel.unpack.isFinite = false at h
    cases hu : x.toModel.unpack with
    | finite s m e hm =>
      rw [hu] at h
      cases h
    | _ => trivial

theorem compare_parts_eq_lt {s t : Sign} {m n : ℕ} {e f : ℤ} {hm : 0 < m} {hn : 0 < n}
    (hu : Canonical (.finite s m e hm)) (hv : Canonical (.finite t n f hn)) :
    (compare e f).then (compare m n) = .lt ↔ (m : ℚ) * 2 ^ e < n * 2 ^ f := by
  obtain ⟨b, hb, rfl, rfl⟩ := hu
  obtain ⟨c, hc, rfl, rfl⟩ := hv
  rw [Ordering.then_eq_lt, compare_lt_iff_lt, compare_eq_iff_eq, compare_lt_iff_lt]
  exact (hb.value_lt_iff hc).symm

theorem compare_parts_eq_gt {s t : Sign} {m n : ℕ} {e f : ℤ} {hm : 0 < m} {hn : 0 < n}
    (hu : Canonical (.finite s m e hm)) (hv : Canonical (.finite t n f hn)) :
    (compare e f).then (compare m n) = .gt ↔ (n : ℚ) * 2 ^ f < m * 2 ^ e := by
  obtain ⟨b, hb, rfl, rfl⟩ := hu
  obtain ⟨c, hc, rfl, rfl⟩ := hv
  rw [Ordering.then_eq_gt, compare_gt_iff_gt, compare_eq_iff_eq, compare_gt_iff_gt]
  refine Iff.trans ?_ (hc.value_lt_iff hb).symm
  omega

theorem lt_iff_of_canonical {u v : UnpackedFloat} (hu : Canonical u) (hv : Canonical v) :
    u.lt v = true ↔ ∃ p q, number u = some p ∧ number v = some q ∧ p < q := by
  have hpos {m : ℕ} (hm : 0 < m) (e : ℤ) : (0 : ℚ) < m * 2 ^ e :=
    mul_pos (Nat.cast_pos.2 hm) (zpow_pos two_pos _)
  rcases u with (_ | _) | _ | s | ⟨_ | _, m, e, hm⟩ <;>
    rcases v with (_ | _) | _ | t | ⟨_ | _, n, f, hn⟩ <;>
    simp [UnpackedFloat.lt, UnpackedFloat.compare, number, Sign.apply]
  case infinity.negative.infinity.positive => rfl
  case zero.finite.negative => exact (hpos hn f).le
  case zero.finite.positive => exact hpos hn f
  case finite.negative.zero => exact hpos hm e
  case finite.positive.zero => exact (hpos hm e).le
  case finite.negative.finite.positive => exact (neg_lt_zero.2 (hpos hm e)).trans (hpos hn f)
  case finite.positive.finite.negative =>
    exact ((neg_lt_zero.2 (hpos hn f)).trans (hpos hm e)).le
  case finite.negative.finite.negative => exact compare_parts_eq_gt hu hv
  case finite.positive.finite.positive => exact compare_parts_eq_lt hu hv

/-- Doubles are compared as the numbers that they are. -/
theorem lt_iff {x y : Float} : x < y ↔ ∃ p q, value x = some p ∧ value y = some q ∧ p < q := by
  refine Iff.trans ?_ (lt_iff_of_canonical (canonical_unpack x) (canonical_unpack y))
  show decide (x.toModel.unpack.lt y.toModel.unpack = true) = true ↔ _
  exact decide_eq_true_iff

theorem not_lt_iff {x y : Float} :
    ¬ x < y ↔ ∀ p q, value x = some p → value y = some q → q ≤ p := by
  rw [lt_iff]
  constructor
  · intro h p q hp hq
    exact not_lt.1 fun hlt => h ⟨p, q, hp, hq, hlt⟩
  · rintro h ⟨p, q, hp, hq, hlt⟩
    exact (h p q hp hq).not_gt hlt

/-- A finite double is a rational number. -/
theorem exists_value_of_isFinite {x : Float} (h : x.isFinite = true) :
    ∃ q, value x = some (ofRat q) := by
  rcases unpack_cases h with ⟨s, hs⟩ | ⟨s, b, hb, hs⟩
  · exact ⟨0, congrArg number hs⟩
  · exact ⟨_, congrArg number hs⟩

end Double

/-! ### The interval of a double -/

namespace Binary

/-- The lower end of the interval. -/
def low (b : Binary) : ℚ := (b.mantissa - if b.narrowBelow then 1 / 4 else 1 / 2) * 2 ^ b.exponent

/-- The upper end of the interval. -/
def high (b : Binary) : ℚ := (b.mantissa + 1 / 2) * 2 ^ b.exponent

/-- Whether a number lies in the interval of the numbers that round to a double. The ends belong to
it if the mantissa is even. -/
structure Catches (b : Binary) (r : ℚ) : Prop where
  low_le : b.low ≤ r
  le_high : r ≤ b.high
  low_lt : b.mantissa % 2 = 1 → b.low < r
  lt_high : b.mantissa % 2 = 1 → r < b.high

theorem low_lt_value (b : Binary) : b.low < b.value := by
  refine mul_lt_mul_of_pos_right ?_ (zpow_pos two_pos _)
  split <;> linarith

theorem value_lt_high (b : Binary) : b.value < b.high :=
  mul_lt_mul_of_pos_right (by linarith) (zpow_pos two_pos _)

/-- The inner numbers of the interval belong to it. -/
theorem catches_of_lt {b : Binary} {r : ℚ} (hlow : b.low < r) (hhigh : r < b.high) : b.Catches r :=
  ⟨hlow.le, hhigh.le, fun _ => hlow, fun _ => hhigh⟩

/-- A double lies in its own interval. -/
theorem catches_value (b : Binary) : b.Catches b.value :=
  catches_of_lt b.low_lt_value b.value_lt_high

/-- A power as a fraction of powers with natural exponents. -/
theorem zpow_eq_div (a : ℚ) (n : ℤ) : a ^ n = a ^ n.toNat / a ^ (-n).toNat := by
  rcases le_total 0 n with h | h
  · lift n to ℕ using h
    simp
  · obtain ⟨k, rfl⟩ : ∃ k : ℕ, n = -k := ⟨(-n).toNat, by omega⟩
    simp

/-- What the ends of the interval and a decimal are multiplied with to become natural numbers. -/
def scale (b : Binary) (d : Decimal) : ℚ := 4 * 2 ^ (-b.exponent).toNat * 10 ^ (-d.exponent).toNat

theorem scale_pos (b : Binary) (d : Decimal) : 0 < b.scale d := by
  unfold scale
  positivity

theorem cast_end (b : Binary) (d : Decimal) (n : ℕ) :
    ((n <<< b.exponent.toNat * Nat.pow 10 (-d.exponent).toNat : ℕ) : ℚ) =
      n / 4 * 2 ^ b.exponent * b.scale d := by
  rw [zpow_eq_div, scale, Nat.shiftLeft_eq, Nat.pow_eq]
  push_cast
  field_simp

theorem cast_scaled (b : Binary) (d : Decimal) :
    ((d.digits * Nat.pow 10 d.exponent.toNat * (4 * b.den) : ℕ) : ℚ) = d.value * b.scale d := by
  rw [Decimal.value, zpow_eq_div, scale, den, Nat.shiftLeft_eq, Nat.pow_eq]
  push_cast
  field_simp

/-- A decimal reads back if it lies in the interval. -/
theorem readsBack_iff {b : Binary} (h : b.IsDouble) (d : Decimal) :
    b.readsBack d = true ↔ b.Catches d.value := by
  have hpos := h.pos
  have hscale := b.scale_pos d
  have hlow : ((b.lowNum * Nat.pow 10 (-d.exponent).toNat : ℕ) : ℚ) = b.low * b.scale d := by
    rw [lowNum, cast_end, low, Nat.cast_sub (by split <;> omega)]
    split <;> push_cast <;> ring
  have hhigh : ((b.highNum * Nat.pow 10 (-d.exponent).toNat : ℕ) : ℚ) = b.high * b.scale d := by
    rw [highNum, cast_end, high]
    push_cast
    ring
  have hscaled := b.cast_scaled d
  unfold readsBack
  dsimp only
  split
  · rename_i heven
    have hcast {m n : ℕ} : m ≤ n ↔ (m : ℚ) ≤ n := Nat.cast_le.symm
    rw [decide_eq_true_iff, hcast, hcast, hlow, hhigh, hscaled, mul_le_mul_iff_left₀ hscale,
      mul_le_mul_iff_left₀ hscale]
    refine ⟨fun ⟨hl, hh⟩ => ⟨hl, hh, ?_, ?_⟩, fun h => ⟨h.low_le, h.le_high⟩⟩ <;> omega
  · rename_i hodd
    have hcast {m n : ℕ} : m < n ↔ (m : ℚ) < n := Nat.cast_lt.symm
    rw [decide_eq_true_iff, hcast, hcast, hlow, hhigh, hscaled, mul_lt_mul_iff_left₀ hscale,
      mul_lt_mul_iff_left₀ hscale]
    have hodd : b.mantissa % 2 = 1 := by omega
    exact ⟨fun ⟨hl, hh⟩ => ⟨hl.le, hh.le, fun _ => hl, fun _ => hh⟩,
      fun h => ⟨h.low_lt hodd, h.lt_high hodd⟩⟩

end Binary
end Rulebook
