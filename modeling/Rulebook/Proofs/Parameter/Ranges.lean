import Rulebook.Proofs.Decimal.Order
import Rulebook.Proofs.Parameter.Reports

/-!
# Range checks of integers

A range check compares the double of an integer with the limit. Rounding keeps the order, so a
violation is only reported if the integer lies outside of the range. It is not reported if the integer
is rounded to the limit: `ranges_checked`. This happens beyond 53 bits only.
-/

namespace Rulebook

/-- Whether a number is an integer in one of the formats of machine words. -/
inductive Number.IsWord : Number → ℤ → Prop where
  | int32 (n : Int32) : IsWord (.int32 n) n.toInt
  | int64 (n : Int64) : IsWord (.int64 n) n.toInt
  | word64 (n : UInt64) : IsWord (.word64 n) n.toNat

theorem Number.IsWord.toFloat_eq {k : Number} {v : ℤ} (h : k.IsWord v) :
    k.toFloat = Decimal.ofInt v := by
  cases h <;> rfl

theorem Number.IsWord.natAbs_lt {k : Number} {v : ℤ} (h : k.IsWord v) : v.natAbs < 2 ^ 64 := by
  cases h with
  | int32 n =>
    have hlt := n.toInt_lt
    have hge := n.le_toInt
    omega
  | int64 n =>
    have hlt := n.toInt_lt
    have hge := n.le_toInt
    omega
  | word64 n => exact n.toNat_lt

theorem Number.IsWord.log2_lt {k : Number} {v : ℤ} (h : k.IsWord v) : v.natAbs.log2 < 1023 := by
  obtain hzero | hne := eq_or_ne v.natAbs 0
  · rw [hzero]
    decide
  · exact ((Nat.log2_lt hne).2 h.natAbs_lt).trans (by decide)

namespace Parameter

open Decimal Extended

/-- Whether a check of the parameters reports a violation. -/
def Reported (parameters : Fields Value) (specs : List Spec) (violation : Violation) : Prop :=
  ∃ rejection, validate parameters specs = .error rejection ∧ violation ∈ rejection.violations

/-- A declaration finds the constraints that are broken. -/
theorem Spec.mem_violations_iff {spec : Spec} {value : Option Value} {name : String}
    {constraint : Constraint} : ⟨name, constraint, none⟩ ∈ spec.violations value ↔
      spec.name = name ∧ spec.Breaks value constraint := by
  have hreports := spec.reports_violations value
  rw [← hreports.complete constraint]
  constructor
  · intro hin
    exact ⟨(congrArg Violation.parameter (hreports.own _ hin)).symm, _, hin, rfl⟩
  · rintro ⟨rfl, violation, hin, rfl⟩
    have hown := hreports.own violation hin
    rwa [hown] at hin

/-- What is reported of a parameter is what its declarations find broken. -/
theorem reported_iff {parameters : Fields Value} {specs : List Spec} {name : String}
    {constraint : Constraint} : Reported parameters specs ⟨name, constraint, none⟩ ↔
      ∃ spec ∈ specs, spec.name = name ∧ spec.Breaks (parameters.get? name) constraint := by
  have hfound : Reported parameters specs ⟨name, constraint, none⟩ ↔
      ∃ spec ∈ specs, ⟨name, constraint, none⟩ ∈ spec.violations (parameters.get? spec.name) := by
    rw [← List.mem_flatMap]
    constructor
    · rintro ⟨rejection, hrejection, hin⟩
      rwa [eq_of_verdict_eq_error hrejection] at hin
    · intro hin
      have hne := List.ne_nil_of_mem hin
      exact ⟨⟨_⟩, if_neg fun hnil => hne (List.isEmpty_iff.1 hnil), hin⟩
  rw [hfound]
  refine exists_congr fun spec => and_congr_right fun _ => ?_
  rw [Spec.mem_violations_iff]
  exact and_congr_right fun hname => by rw [hname]

namespace Spec

variable {spec : Spec} {k : Number} {v a : ℤ} {limit : Float}

/-- The lower limit is broken by an integer that is below it and is not rounded to it. -/
theorem breaks_min_iff (hk : k.IsWord v) (hlimit : Double.value limit = some (ofRat a)) :
    spec.Breaks (some (.number k)) (.min limit) ↔
      spec.kind.Covers (.number k) ∧ spec.min = some limit ∧ v < a ∧ ¬ Rounds v a := by
  have hlt := (ofInt_lt_iff hk.log2_lt hlimit).1
  rw [Int.cast_lt, ← hk.toFloat_eq] at hlt
  rw [← hlt]
  constructor
  · rintro (_ | _ | ⟨-, hkind, hexceeds⟩)
    cases hexceeds with
    | min hmin hn hvalue h => exact ⟨hkind, hmin, Double.lt_iff.2 ⟨_, _, hn, hvalue, h⟩⟩
  · rintro ⟨hkind, hmin, h⟩
    obtain ⟨p, q, hn, hvalue, h⟩ := Double.lt_iff.1 h
    exact .limit (by rintro ⟨⟩) hkind (.min hmin hn hvalue h)

/-- The upper limit is broken by an integer that is above it and is not rounded to it. -/
theorem breaks_max_iff (hk : k.IsWord v) (hlimit : Double.value limit = some (ofRat a)) :
    spec.Breaks (some (.number k)) (.max limit) ↔
      spec.kind.Covers (.number k) ∧ spec.max = some limit ∧ a < v ∧ ¬ Rounds v a := by
  have hlt := (ofInt_lt_iff hk.log2_lt hlimit).2
  rw [Int.cast_lt, ← hk.toFloat_eq] at hlt
  rw [← hlt]
  constructor
  · rintro (_ | _ | ⟨-, hkind, hexceeds⟩)
    cases hexceeds with
    | max hmax hn hvalue h => exact ⟨hkind, hmax, Double.lt_iff.2 ⟨_, _, hvalue, hn, h⟩⟩
  · rintro ⟨hkind, hmax, h⟩
    obtain ⟨p, q, hvalue, hn, h⟩ := Double.lt_iff.1 h
    exact .limit (by rintro ⟨⟩) hkind (.max hmax hn hvalue h)

end Spec

/-- **Range checks of integers are sound, and exact up to rounding.** Of an integer in the format of a
machine word, a check reports a limit that is an integer exactly if a declaration of the parameter that
admits the number has this limit, the integer lies beyond it, and the integer is not rounded to it. If
it is rounded to the limit, it is at most 1024 away from it, and it is the limit itself if it is at most
`2 ^ 53` in size or the limit is smaller than that. -/
theorem ranges_checked {parameters : Fields Value} {specs : List Spec} {name : String} {k : Number}
    {v a : ℤ} {limit : Float} (hparameter : parameters.get? name = some (.number k))
    (hk : k.IsWord v) (hlimit : Double.value limit = some (ofRat a)) :
    (Reported parameters specs ⟨name, .min limit, none⟩ ↔
        ∃ spec ∈ specs, spec.name = name ∧ spec.kind.Covers (.number k) ∧ spec.min = some limit ∧
          v < a ∧ ¬ Rounds v a) ∧
      (Reported parameters specs ⟨name, .max limit, none⟩ ↔
        ∃ spec ∈ specs, spec.name = name ∧ spec.kind.Covers (.number k) ∧ spec.max = some limit ∧
          a < v ∧ ¬ Rounds v a) ∧
      (Rounds v a → |v - a| ≤ 1024 ∧
        (v.natAbs ≤ 0x20000000000000 ∨ a.natAbs < 0x20000000000000 → v = a)) := by
  refine ⟨?_, ?_, fun h => ⟨?_, ?_⟩⟩
  · simp only [reported_iff, hparameter, Spec.breaks_min_iff hk hlimit]
  · simp only [reported_iff, hparameter, Spec.breaks_max_iff hk hlimit]
  · exact_mod_cast h.abs_sub_le hk.natAbs_lt
  · rintro (hv | ha)
    · exact_mod_cast (h.eq_of_le hv).symm
    · exact (h.eq_of_lt ha).symm

/-- The smallest integer beyond 53 bits is rounded to its neighbour, and keeps a limit there. -/
theorem ranges_checked_of_neighbours :
    (9007199254740992 : ℤ) < 9007199254740993 ∧
      ¬ Reported [("n", .number (.word64 9007199254740993))]
          [{ name := "n", kind := .integer, max := some (ofInt 9007199254740992) }]
          ⟨"n", .max (ofInt 9007199254740992), none⟩ := by
  have hk : (Number.word64 9007199254740993).IsWord 9007199254740993 := .word64 _
  have hlimit : Double.value (ofInt 9007199254740992) = some (ofRat (9007199254740992 : ℤ)) :=
    value_ofInt (by decide)
  have hparameter : Fields.get? [("n", Value.number (.word64 9007199254740993))] "n" =
      some (.number (.word64 9007199254740993)) := rfl
  have hrounds : Rounds 9007199254740993 (9007199254740992 : ℤ) := by
    refine .inr ⟨by decide, ⟨0x10000000000000, 1, true⟩, ?_, ?_, ?_⟩
    · refine ⟨?_, ?_, ?_, ?_, ?_, ?_⟩ <;> decide
    · -- the integer is the upper end of the interval of an even mantissa
      refine ⟨?_, ?_, fun hodd => absurd hodd (by decide), fun hodd => absurd hodd (by decide)⟩ <;>
        norm_num [Binary.low, Binary.high]
    · norm_num [Binary.value]
  refine ⟨by decide, fun hreported => ?_⟩
  obtain ⟨-, hmax, -⟩ := ranges_checked hparameter hk hlimit
  obtain ⟨-, -, -, -, -, -, hno⟩ := hmax.1 hreported
  exact hno hrounds

end Parameter
end Rulebook
