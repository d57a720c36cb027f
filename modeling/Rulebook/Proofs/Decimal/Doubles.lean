import Mathlib
import Rulebook.Decimal.Shortest

/-!
# Doubles taken apart

A double is a pattern of 64 bits. The arithmetic of doubles takes the pattern apart into a sign, a
mantissa and an exponent and puts it together again. Here neither step loses anything:
`Double.unpack_pack` and `Double.pack_unpack`, and the digits of a double are found from the same
parts: `Double.unpack_cases`.
-/

namespace Rulebook

open Float.Model (Format UnpackedFloat)
open Float.Model.UnpackedFloat

/-- Whether a mantissa and an exponent are those of a positive finite double. -/
structure Binary.IsDouble (b : Binary) : Prop where
  pos : 0 < b.mantissa
  lt : b.mantissa < 0x20000000000000
  low : -1074 ≤ b.exponent
  high : b.exponent ≤ 971
  /-- Only the smallest exponent has mantissas without the leading bit. -/
  full : 0x10000000000000 ≤ b.mantissa ∨ b.exponent = -1074
  narrow : b.narrowBelow = true ↔ b.mantissa = 0x10000000000000 ∧ -1074 < b.exponent

/-- The double with a sign, taken apart. -/
def Binary.unpacked (s : Sign) (b : Binary) (h : b.IsDouble) : UnpackedFloat :=
  .finite s b.mantissa b.exponent h.pos

namespace Double

/-! ### The parts of a pattern -/

theorem toNat_unpackMantissa (bits : UInt64) :
    (@unpackMantissa Format.binary64 bits.toBitVec).toNat = (bits &&& 0xfffffffffffff).toNat := by
  change (bits.toNat >>> 0) % 2 ^ 52 = bits.toNat &&& (2 ^ 52 - 1)
  rw [Nat.and_two_pow_sub_one_eq_mod, Nat.shiftRight_zero]

theorem toNat_unpackExponent (bits : UInt64) :
    (@unpackExponent Format.binary64 bits.toBitVec).toNat = ((bits >>> 52) &&& 0x7ff).toNat := by
  change (bits.toNat >>> 52) % 2 ^ 11 = (bits.toNat >>> 52) &&& (2 ^ 11 - 1)
  rw [Nat.and_two_pow_sub_one_eq_mod]

theorem ofBitVec_unpackSign (bits : UInt64) :
    Sign.ofBitVec (@unpackSign Format.binary64 bits.toBitVec) =
      if bits >>> 63 == 1 then .negative else .positive := by
  have hsign : (@unpackSign Format.binary64 bits.toBitVec).toNat = (bits >>> 63).toNat := by
    change (bits.toNat >>> 63) % 2 ^ 1 = bits.toNat >>> 63
    have hbits := bits.toNat_lt
    rw [Nat.shiftRight_eq_div_pow]
    omega
  have hcases : (bits >>> 63).toNat = 0 ∨ (bits >>> 63).toNat = 1 := by
    rw [← hsign]
    have := (@unpackSign Format.binary64 bits.toBitVec).isLt
    omega
  unfold Sign.ofBitVec
  rcases hcases with h | h
  · have hword : bits >>> 63 = 0 := UInt64.toNat.inj h
    rw [if_pos (BitVec.eq_of_toNat_eq (by rw [hsign, h]; rfl)), hword]
    rfl
  · have hword : bits >>> 63 = 1 := UInt64.toNat.inj h
    rw [if_neg, hword]
    · rfl
    · intro hzero
      rw [hzero] at hsign
      rw [h] at hsign
      cases hsign

theorem packComponents_unpack (b : BitVec Format.binary64.numBits) :
    packComponents Format.binary64 (Sign.ofBitVec (unpackSign b)) (unpackExponent b)
      (unpackMantissa b) = b := by
  have hsign (v : BitVec 1) : (Sign.ofBitVec v).toBitVec = v := by
    revert v
    decide
  rw [packComponents, hsign, unpackSign, unpackExponent, unpackMantissa]
  simp only [BitVec.extractLsb]
  ext i hi
  grind

theorem unpackSign_packComponents (s : Sign) (e : BitVec 11) (m : BitVec 52) :
    Sign.ofBitVec (unpackSign (packComponents Format.binary64 s e m)) = s := by
  simp only [unpackSign, packComponents, BitVec.extractLsb]
  rw [BitVec.extractLsb'_append_eq_of_le (by omega), BitVec.extractLsb'_append_eq_of_le (by omega)]
  cases s <;> rfl

/-- The leading bit that a pattern leaves out. -/
theorem toNat_leading_append (m : BitVec 52) : (1#1 ++ m).toNat = 0x10000000000000 + m.toNat := by
  rw [BitVec.toNat_append, ← Nat.shiftLeft_add_eq_or_of_lt m.isLt, Nat.shiftLeft_eq]
  rfl

/-! ### Doubles that are numbers -/

theorem ofBits_of_zero {bits : UInt64} (h : ((bits >>> 52) &&& 0x7ff).toNat = 0) :
    Binary.ofBits bits = ⟨(bits &&& 0xfffffffffffff).toNat, -1074, false⟩ := by
  unfold Binary.ofBits
  dsimp only
  rw [if_pos h]

theorem ofBits_of_ne_zero {bits : UInt64} (h : ((bits >>> 52) &&& 0x7ff).toNat ≠ 0) :
    Binary.ofBits bits = ⟨(bits &&& 0xfffffffffffff).toNat + 0x10000000000000,
      (((bits >>> 52) &&& 0x7ff).toNat : Int) - 1075,
      (bits &&& 0xfffffffffffff).toNat == 0 && decide (1 < ((bits >>> 52) &&& 0x7ff).toNat)⟩ := by
  unfold Binary.ofBits
  dsimp only
  rw [if_neg h]

theorem finite_congr {s : Sign} {m n : Nat} {e f : Int} {hm : 0 < m} {hn : 0 < n} (hmn : m = n)
    (hef : e = f) : UnpackedFloat.finite s m e hm = .finite s n f hn := by
  subst hmn hef
  rfl

/-- A pattern stands for what is not finite, for a zero, or for a number with the parts that
`Binary.ofBits` finds. -/
theorem unpack_bits_cases (bits : UInt64) :
    let u := unpack Format.binary64 bits.toBitVec
    let s : Sign := if bits >>> 63 == 1 then .negative else .positive
    u.isFinite = false ∨ u = .zero s ∨ ∃ h : (Binary.ofBits bits).IsDouble,
      u = (Binary.ofBits bits).unpacked s h := by
  intro u s
  have hmantissa := toNat_unpackMantissa bits
  have hexponent := toNat_unpackExponent bits
  have hfraction : (bits &&& 0xfffffffffffff).toNat < 0x10000000000000 := by
    rw [← hmantissa]
    exact (@unpackMantissa Format.binary64 bits.toBitVec).isLt
  have hfield : ((bits >>> 52) &&& 0x7ff).toNat < 2048 := by
    rw [← hexponent]
    exact (@unpackExponent Format.binary64 bits.toBitVec).isLt
  have hu : u = unpack Format.binary64 bits.toBitVec := rfl
  rw [unpack, ofBitVec_unpackSign] at hu
  split at hu
  · left
    split at hu
    · rw [hu]
      rfl
    · rw [hu]
      rfl
  right
  -- the pattern is finite: its exponent is not the last one
  rename_i hfinite
  have hlast : ((bits >>> 52) &&& 0x7ff).toNat ≠ 2047 := by
    rw [← hexponent]
    exact fun h => hfinite (BitVec.eq_of_toNat_eq h)
  split at hu
  · -- a zero, or a number without a leading bit
    rename_i hzero
    have hword : ((bits >>> 52) &&& 0x7ff).toNat = 0 := by
      rw [← hexponent, hzero]
      rfl
    split at hu
    · exact .inl hu
    right
    rename_i hne
    have hpos : (bits &&& 0xfffffffffffff).toNat ≠ 0 := by
      rw [← hmantissa]
      exact fun h => hne (BitVec.eq_of_toNat_eq h)
    have hparts := ofBits_of_zero hword
    have hdouble : (Binary.ofBits bits).IsDouble := by
      rw [hparts]
      refine ⟨?_, ?_, ?_, ?_, ?_, ?_⟩ <;> dsimp only <;> try omega
      simp
    refine ⟨hdouble, hu.trans ?_⟩
    refine finite_congr ?_ ?_
    · rw [hparts, hmantissa]
    · rw [hparts, hexponent, hword]
      rfl
  · right
    -- a number with a leading bit
    rename_i hzero
    have hword : ((bits >>> 52) &&& 0x7ff).toNat ≠ 0 := by
      rw [← hexponent]
      exact fun h => hzero (BitVec.eq_of_toNat_eq h)
    have hparts := ofBits_of_ne_zero hword
    have hdouble : (Binary.ofBits bits).IsDouble := by
      rw [hparts]
      refine ⟨?_, ?_, ?_, ?_, ?_, ?_⟩ <;> dsimp only <;> try omega
      rw [Bool.and_eq_true, beq_iff_eq, decide_eq_true_eq]
      omega
    refine ⟨hdouble, hu.trans ?_⟩
    refine finite_congr ?_ ?_
    · rw [hparts, toNat_leading_append, hmantissa, Nat.add_comm]
    · rw [hparts, hexponent]
      rfl

/-! ### Putting a double together -/

theorem log2_eq_of_full {m : Nat} (hlow : 0x10000000000000 ≤ m) (hlt : m < 0x20000000000000) :
    m.log2 = 52 := by
  rw [Nat.log2_eq_iff (by omega)]
  exact ⟨hlow, hlt⟩

theorem unpack_full (s : Sign) {e : BitVec 11} (m : BitVec 52) (hlast : e ≠ -1#11)
    (hzero : e ≠ 0#11) : unpack Format.binary64 (packComponents Format.binary64 s e m) =
      .finite s (0x10000000000000 + m.toNat) ((e.toNat : Int) - 1075) (by omega) := by
  rw [unpack]
  simp only [unpackExponent_packComponents, unpackMantissa_packComponents,
    unpackSign_packComponents]
  rw [if_neg hlast, if_neg hzero]
  exact finite_congr (toNat_leading_append m) rfl

theorem unpack_small (s : Sign) {m : BitVec 52} (hm : m ≠ 0#52) :
    unpack Format.binary64 (packComponents Format.binary64 s 0#11 m) =
      .finite s m.toNat (-1074) (Nat.pos_of_ne_zero fun h => hm (BitVec.eq_of_toNat_eq h)) := by
  rw [unpack]
  simp only [unpackExponent_packComponents, unpackMantissa_packComponents,
    unpackSign_packComponents]
  rw [if_neg (by decide), if_pos trivial, dif_neg hm]
  exact finite_congr rfl rfl

/-- The pattern of a double. -/
theorem pack_unpacked (s : Sign) {b : Binary} (h : b.IsDouble) :
    UnpackedFloat.pack Format.binary64 (b.unpacked s h) =
      packComponents Format.binary64 s
        (if 0x10000000000000 ≤ b.mantissa then BitVec.ofNat 11 (b.exponent + 1075).toNat else 0#11)
        (BitVec.ofNat 52 b.mantissa) := by
  have hlow := h.low
  have hhigh := h.high
  have hlt := h.lt
  have hbiased : (b.exponent + Format.binary64.exponentBias +
      Format.binary64.mantissaBitsWithoutImplicit).toNat = (b.exponent + 1075).toNat := by
    show (b.exponent + (1023 : Nat) + (52 : Nat)).toNat = _
    congr 1
    omega
  have hbits : Format.binary64.mantissaBits = 53 := rfl
  have hcapacity : ¬ 2 ^ Format.binary64.exponentBits ≤ (b.exponent + 1075).toNat + 1 := by
    show ¬ 2048 ≤ _
    omega
  rw [Binary.unpacked, UnpackedFloat.pack]
  dsimp only
  rw [hbiased, hbits, if_neg hcapacity]
  by_cases hfull : 0x10000000000000 ≤ b.mantissa
  · rw [if_pos hfull, if_pos (congrArg (· + 1) (log2_eq_of_full hfull hlt))]
  · have hlog : b.mantissa.log2 < 52 := (Nat.log2_lt h.pos.ne').2 (Nat.lt_of_not_le hfull)
    rw [if_neg hfull, if_neg (by omega)]

/-- A double that is put together can be taken apart again. -/
theorem unpack_pack (s : Sign) {b : Binary} (h : b.IsDouble) :
    unpack Format.binary64 (UnpackedFloat.pack Format.binary64 (b.unpacked s h)) =
      b.unpacked s h := by
  have hlow := h.low
  have hhigh := h.high
  have hlt := h.lt
  rw [pack_unpacked]
  by_cases hfull : 0x10000000000000 ≤ b.mantissa
  · have hexponent : (BitVec.ofNat 11 (b.exponent + 1075).toNat).toNat =
        (b.exponent + 1075).toNat := by
      rw [BitVec.toNat_ofNat, Nat.mod_eq_of_lt (by omega)]
    have hne {k : Nat} (hk : (b.exponent + 1075).toNat ≠ k % 2 ^ 11) :
        BitVec.ofNat 11 (b.exponent + 1075).toNat ≠ BitVec.ofNat 11 k := by
      intro heq
      rw [heq, BitVec.toNat_ofNat] at hexponent
      exact hk hexponent.symm
    rw [if_pos hfull, unpack_full s _ (@hne 2047 (by omega)) (hne (by omega))]
    refine finite_congr ?_ ?_
    · rw [BitVec.toNat_ofNat]
      omega
    · rw [hexponent]
      omega
  · have hmantissa : (BitVec.ofNat 52 b.mantissa).toNat = b.mantissa := by
      rw [BitVec.toNat_ofNat, Nat.mod_eq_of_lt (by omega)]
    have hne : BitVec.ofNat 52 b.mantissa ≠ 0#52 := by
      intro heq
      rw [heq] at hmantissa
      exact h.pos.ne hmantissa
    rw [if_neg hfull, unpack_small s hne]
    exact finite_congr hmantissa (h.full.resolve_left hfull).symm

/-- Only two patterns stand for zero. -/
theorem bits_of_unpack_zero {bits : UInt64} {s : Sign}
    (h : unpack Format.binary64 bits.toBitVec = .zero s) :
    bits.toBitVec = packComponents Format.binary64 s 0#11 0#52 := by
  have hself := packComponents_unpack bits.toBitVec
  rw [unpack] at h
  split at h
  · split at h <;> cases h
  split at h
  · rename_i hexponent
    split at h
    · rename_i hmantissa
      cases h
      rw [hexponent, hmantissa] at hself
      exact hself.symm
    · cases h
  · cases h

/-- A finite pattern that is taken apart can be put together again. -/
theorem pack_unpack_bits {bits : UInt64}
    (h : (unpack Format.binary64 bits.toBitVec).isFinite = true) :
    UnpackedFloat.pack Format.binary64 (unpack Format.binary64 bits.toBitVec) = bits.toBitVec := by
  rcases unpack_bits_cases bits with hnot | hzero | ⟨hdouble, hparts⟩
  · rw [hnot] at h
    cases h
  · rw [hzero, bits_of_unpack_zero hzero]
    rfl
  · have hself := packComponents_unpack bits.toBitVec
    have hmantissa := toNat_unpackMantissa bits
    have hexponent := toNat_unpackExponent bits
    have hfraction : (bits &&& 0xfffffffffffff).toNat < 0x10000000000000 := by
      rw [← hmantissa]
      exact (@unpackMantissa Format.binary64 bits.toBitVec).isLt
    rw [ofBitVec_unpackSign] at hself
    rw [hparts, pack_unpacked]
    refine Eq.trans ?_ hself
    congr 1
    · -- the exponent, and after it the fraction, whose leading bit is not stored
      by_cases hword : ((bits >>> 52) &&& 0x7ff).toNat = 0
      · rw [ofBits_of_zero hword, if_neg (by dsimp only; omega)]
        have hzero : @unpackExponent Format.binary64 bits.toBitVec = 0#11 :=
          BitVec.eq_of_toNat_eq (hexponent.trans hword)
        exact hzero.symm
      · rw [ofBits_of_ne_zero hword, if_pos (by dsimp only; omega)]
        have hfield : ((bits >>> 52) &&& 0x7ff).toNat < 2048 := by
          rw [← hexponent]
          exact (@unpackExponent Format.binary64 bits.toBitVec).isLt
        refine BitVec.eq_of_toNat_eq ?_
        rw [BitVec.toNat_ofNat, hexponent]
        dsimp only
        omega
    · refine BitVec.eq_of_toNat_eq ?_
      rw [BitVec.toNat_ofNat, hmantissa]
      by_cases hword : ((bits >>> 52) &&& 0x7ff).toNat = 0
      · rw [ofBits_of_zero hword]
        dsimp only
        omega
      · rw [ofBits_of_ne_zero hword]
        dsimp only
        omega

end Double

namespace Binary

variable {s : Sign} {b : Binary}

/-- The mantissa and the exponent determine the interval below a double. -/
theorem IsDouble.ext {c : Binary} (hb : b.IsDouble) (hc : c.IsDouble)
    (hmantissa : b.mantissa = c.mantissa) (hexponent : b.exponent = c.exponent) : b = c := by
  have hnarrow : b.narrowBelow = c.narrowBelow := by
    rw [Bool.eq_iff_iff, hb.narrow, hc.narrow, hmantissa, hexponent]
  cases b
  cases c
  dsimp only at hmantissa hexponent hnarrow
  rw [hmantissa, hexponent, hnarrow]

/-- The double with a sign. -/
def toFloat (s : Sign) (b : Binary) (h : b.IsDouble) : Float := .ofModel (.pack (b.unpacked s h))

theorem unpack_toFloat (h : b.IsDouble) : (b.toFloat s h).toModel.unpack = b.unpacked s h :=
  Double.unpack_pack s h

theorem neg_toFloat (h : b.IsDouble) : -b.toFloat s h = b.toFloat (-s) h := by
  show Float.ofModel (.pack (b.toFloat s h).toModel.unpack.neg) = _
  rw [unpack_toFloat]
  rfl

theorem abs_toFloat (h : b.IsDouble) : (b.toFloat s h).abs = b.toFloat .positive h := by
  show Float.ofModel (.pack (b.toFloat s h).toModel.unpack.abs) = _
  rw [unpack_toFloat]
  rfl

theorem isNaN_toFloat (h : b.IsDouble) : (b.toFloat s h).isNaN = false := by
  show (b.toFloat s h).toModel.unpack.isNaN = false
  rw [unpack_toFloat]
  rfl

theorem isInf_toFloat (h : b.IsDouble) : (b.toFloat s h).isInf = false := by
  show (b.toFloat s h).toModel.unpack.isInf = false
  rw [unpack_toFloat]
  rfl

theorem toFloat_beq_zero (h : b.IsDouble) : (b.toFloat s h == 0.0) = false := by
  show (b.toFloat s h).toModel.unpack.beq (0.0 : Float).toModel.unpack = false
  rw [unpack_toFloat]
  cases s <;> rfl

/-- The parts of a double are found in its pattern. -/
theorem parts_toFloat (h : b.IsDouble) : ofBits (b.toFloat s h).toBits = b ∧
    ((b.toFloat s h).toBits >>> 63 == 1) = (s == .negative) := by
  have hu : unpack Format.binary64 (b.toFloat s h).toBits.toBitVec = b.unpacked s h :=
    unpack_toFloat h
  rcases Double.unpack_bits_cases (b.toFloat s h).toBits with hnot | hzero | ⟨hdouble, hparts⟩
  · rw [hu] at hnot
    cases hnot
  · rw [hu] at hzero
    cases hzero
  · rw [hu] at hparts
    obtain ⟨hsign, hmantissa, hexponent⟩ := UnpackedFloat.finite.inj hparts
    refine ⟨hdouble.ext h hmantissa.symm hexponent.symm, ?_⟩
    generalize ((b.toFloat s h).toBits >>> 63 == 1) = negative at hsign ⊢
    cases negative <;> rw [hsign] <;> rfl

end Binary

namespace Double

/-- The two zeros. -/
def zero : Sign → Float
  | .negative => -0.0
  | .positive => 0.0

theorem pack_unpack {x : Float} (h : x.isFinite = true) :
    Float.ofModel (.pack x.toModel.unpack) = x := by
  obtain ⟨⟨bits, valid⟩⟩ := x
  have hbits : UInt64.ofBitVec (UnpackedFloat.pack Format.binary64
      (unpack Format.binary64 bits.toBitVec)) = bits := by
    rw [pack_unpack_bits h]
  show Float.ofModel ⟨_, _⟩ = Float.ofModel ⟨_, _⟩
  congr 2

theorem isFinite_eq (x : Float) : x.isFinite = !(x.isNaN || x.isInf) := by
  show x.toModel.unpack.isFinite = !(x.toModel.unpack.isNaN || x.toModel.unpack.isInf)
  cases x.toModel.unpack <;> rfl

/-- A finite double is a zero or has a mantissa and an exponent. -/
theorem unpack_cases {x : Float} (h : x.isFinite = true) :
    (∃ s, x.toModel.unpack = .zero s) ∨
      ∃ (s : Sign) (b : Binary) (h : b.IsDouble), x.toModel.unpack = b.unpacked s h := by
  rcases unpack_bits_cases x.toBits with hnot | hzero | ⟨hdouble, hparts⟩
  · exact absurd (h.symm.trans hnot) (by decide)
  · exact .inl ⟨_, hzero⟩
  · exact .inr ⟨_, _, hdouble, hparts⟩

theorem eq_zero_of_unpack {x : Float} {s : Sign} (h : x.toModel.unpack = .zero s) :
    x = zero s := by
  have hfinite : x.isFinite = true := congrArg UnpackedFloat.isFinite h
  refine (pack_unpack hfinite).symm.trans ?_
  rw [h]
  cases s <;> rfl

theorem eq_toFloat_of_unpack {x : Float} {s : Sign} {b : Binary} {h : b.IsDouble}
    (hx : x.toModel.unpack = b.unpacked s h) : x = b.toFloat s h := by
  have hfinite : x.isFinite = true := congrArg UnpackedFloat.isFinite hx
  refine (pack_unpack hfinite).symm.trans ?_
  rw [hx]
  rfl

end Double
end Rulebook
