import Rulebook.Proofs.Decimal.Shortest
import Rulebook.Proofs.Json.Scalars

/-!
# Written doubles

Every finite double is read back from the text that the printer of JSON writes for it: `readsBack`.
With an exponent or without one, the text is a numeral that stands for the selected decimal, and this
decimal lies in the interval of the double.
-/

namespace Rulebook

open Float.Model.UnpackedFloat (Sign)

namespace Json

/-! ### The number of a numeral -/

/-- The decimal that a numeral stands for, without its sign. -/
def Numeral.decimal (n : Numeral) : Decimal :=
  ⟨Decimal.natOfDigits (n.whole ++ n.fraction.getD []),
    n.exponent.getD 0 - (n.fraction.getD []).length⟩

/-- Whether a text is a numeral without a sign that is not written as an integer and stands for a
number. -/
def IsReal (s : List Char) (q : ℚ) : Prop :=
  ∃ numeral, splitNumeral false s = some (numeral, []) ∧ numeral.negative = false ∧
    numeral.isIntegral = false ∧ numeral.decimal.value = q

variable {s rest : List Char}

theorem splitMinus_of_ne (h : ∀ tail, s ≠ '-' :: tail) : splitMinus s = (false, s) := by
  unfold splitMinus
  split
  · exact absurd rfl (h _)
  · rfl

/-- A sign in front of a numeral without one changes the numeral in its sign only. -/
theorem splitNumeral_sign (negative : Bool) {numeral : Numeral}
    (h : splitNumeral false s = some (numeral, [])) (hsign : numeral.negative = false) :
    splitNumeral false ((if negative then "-" else "").toList ++ s) =
      some (⟨negative, numeral.whole, numeral.fraction, numeral.exponent⟩, []) := by
  simp only [splitNumeral, Option.bind_eq_bind, Option.bind_eq_some_iff] at h
  obtain ⟨⟨whole, s₁⟩, hwhole, ⟨fraction, s₂⟩, hfraction, ⟨exponent, s₃⟩, hexponent, heq⟩ := h
  cases heq
  have hunsigned : splitMinus s = (false, s) := by
    refine splitMinus_of_ne fun tail hs => ?_
    rw [hs] at hsign
    cases hsign
  rw [hunsigned] at hwhole
  have hminus : splitMinus ((if negative then "-" else "").toList ++ s) = (negative, s) := by
    cases negative
    · exact hunsigned
    · rfl
  unfold splitNumeral
  rw [hminus]
  dsimp only
  rw [hwhole]
  show (splitFraction false s₁).bind _ = _
  rw [hfraction]
  show (splitExponent s₂).bind _ = _
  rw [hexponent]
  rfl

/-- A numeral in the interval of a double stands for the double. -/
theorem ofNumeral_real {numeral : Numeral} (hmarked : numeral.isIntegral = false) {b : Binary}
    (hb : b.IsDouble) (hr : b.Catches numeral.decimal.value) : ofNumeral numeral =
      some (.real (b.toFloat (if numeral.negative then .negative else .positive) hb)) := by
  have hfloat : numeral.toFloat =
      b.toFloat (if numeral.negative then .negative else .positive) hb :=
    Decimal.nearestSigned_eq hb hr numeral.negative
  unfold ofNumeral
  dsimp only
  rw [hmarked, Bool.false_and, Bool.false_and, if_neg Bool.false_ne_true, hfloat,
    Binary.isInf_toFloat, if_neg Bool.false_ne_true]

/-! ### The parts of a written double -/

theorem splitWhole_of_all (hdigits : s.all Char.isDigit = true)
    (hhead : ∃ c, s.head? = some c ∧ c ≠ '0')
    (hrest : rest.head?.any Char.isDigit = false) : splitWhole (s ++ rest) = some (s, rest) := by
  obtain ⟨c, hc, hne⟩ := hhead
  cases s with
  | nil => cases hc
  | cons d tail =>
    cases hc
    have htake := takeWhile_append_stop hdigits hrest
    have hdrop := dropWhile_append_stop hdigits hrest
    rw [List.all_cons, Bool.and_eq_true] at hdigits
    rw [List.cons_append] at htake hdrop ⊢
    rw [splitWhole, if_pos hdigits.1, htake, hdrop]
    exact hne

theorem splitFraction_of_all (hdigits : s.all Char.isDigit = true) (hne : s ≠ [])
    (hrest : rest.head?.any Char.isDigit = false) :
    splitFraction false ('.' :: (s ++ rest)) = some (some s, rest) := by
  rw [splitFraction, takeWhile_append_stop hdigits hrest, dropWhile_append_stop hdigits hrest,
    List.isEmpty_eq_false_iff.2 hne]
  rfl

theorem splitFraction_digits (hdigits : s.all Char.isDigit = true) (hne : s ≠ []) :
    splitFraction false ('.' :: s) = some (some s, []) := by
  have hsplit := @splitFraction_of_all s [] hdigits hne rfl
  rwa [List.append_nil] at hsplit

theorem all_take {p : Char → Bool} (h : s.all p = true) (n : ℕ) : (s.take n).all p = true :=
  List.all_eq_true.2 fun c hc => List.all_eq_true.1 h c (List.mem_of_mem_take hc)

theorem all_drop {p : Char → Bool} (h : s.all p = true) (n : ℕ) : (s.drop n).all p = true :=
  List.all_eq_true.2 fun c hc => List.all_eq_true.1 h c (List.mem_of_mem_drop hc)

/-- The digits of a number that is not zero do not begin with a zero. -/
theorem head?_toDigits {n : Nat} (h : n ≠ 0) :
    ∃ c, (Nat.toDigits 10 n).head? = some c ∧ c ≠ '0' := by
  obtain ⟨c, tail, heq, -, hzero⟩ := exists_toDigits_eq_cons n
  exact ⟨c, by rw [heq]; rfl, fun hc => h (hzero hc)⟩

theorem splitExponent_written (e : ℤ) :
    splitExponent ('e' :: ((if e < 0 then "-" else "+").toList ++ Nat.toDigits 10 e.natAbs)) =
      some (some e, []) := by
  have hdigits := all_isDigit_toDigits e.natAbs
  have hvalue : Decimal.natOfDigits (Nat.toDigits 10 e.natAbs) = e.natAbs :=
    Nat.ofDigitChars_toDigits (by decide) (by decide)
  have hsign : Decimal.splitSign ((if e < 0 then "-" else "+").toList ++ Nat.toDigits 10 e.natAbs) =
      (decide (e < 0), Nat.toDigits 10 e.natAbs) := by
    by_cases h : e < 0
    · rw [if_pos h, decide_eq_true h]
      rfl
    · rw [if_neg h, decide_eq_false h]
      rfl
  rw [splitExponent, if_pos (.inl rfl), hsign]
  dsimp only
  rw [takeWhile_of_all hdigits, dropWhile_of_all hdigits, hvalue,
    if_neg (by simp [Nat.toDigits_ne_nil])]
  by_cases h : e < 0
  · rw [decide_eq_true h, if_pos rfl, Int.natCast_natAbs, abs_of_neg h, neg_neg]
  · rw [decide_eq_false h, if_neg Bool.false_ne_true, Int.natAbs_of_nonneg (not_lt.1 h)]

/-- A numeral that begins with its digits has no sign. -/
theorem isReal_of_parts {whole after : List Char} {fraction : Option (List Char)}
    {exponent : Option ℤ} (hwhole : splitWhole s = some (whole, rest))
    (hfraction : splitFraction false rest = some (fraction, after))
    (hexponent : splitExponent after = some (exponent, []))
    (hmarked : (fraction.isNone && exponent.isNone) = false) :
    IsReal s (Numeral.decimal ⟨false, whole, fraction, exponent⟩).value := by
  have hminus : splitMinus s = (false, s) := by
    refine splitMinus_of_ne fun tail hs => ?_
    rw [hs] at hwhole
    cases hwhole
  refine ⟨⟨false, whole, fraction, exponent⟩, ?_, rfl, hmarked, rfl⟩
  unfold splitNumeral
  rw [hminus]
  dsimp only
  rw [hwhole]
  show (splitFraction false rest).bind _ = _
  rw [hfraction]
  show (splitExponent after).bind _ = _
  rw [hexponent]
  rfl

theorem natOfDigits_append (s t : List Char) : Decimal.natOfDigits (s ++ t) =
    10 ^ t.length * Decimal.natOfDigits s + Decimal.natOfDigits t :=
  (Nat.ofDigitChars_append 0).trans Nat.ofDigitChars_eq_ofDigitChars_zero

theorem natOfDigits_zeros (n : ℕ) : Decimal.natOfDigits (List.replicate n '0') = 0 :=
  Nat.ofDigitChars_replicate_zero

/-! ### The two forms of a written double -/

theorem isReal_positionalText {d : Decimal} (hd : d.digits ≠ 0) :
    IsReal (Layout.document.positionalText d).toList d.value := by
  obtain ⟨n, e⟩ := d
  have hall := all_isDigit_toDigits n
  have hhead := head?_toDigits hd
  have hvalue : Decimal.natOfDigits (Nat.toDigits 10 n) = n :=
    Nat.ofDigitChars_toDigits (by decide) (by decide)
  have hlength : 0 < (Nat.toDigits 10 n).length := Nat.length_toDigits_pos
  unfold Layout.positionalText
  dsimp only
  generalize Nat.toDigits 10 n = digits at *
  split
  · -- an integral number
    rename_i hexponent
    lift e to ℕ using hexponent
    have hnumber : (Numeral.decimal ⟨false, digits ++ List.replicate e '0', some ['0'],
        none⟩).value = (⟨n, e⟩ : Decimal).value := by
      rw [Numeral.decimal, Option.getD_some, natOfDigits_append, natOfDigits_append, hvalue,
        natOfDigits_zeros, List.length_replicate, Decimal.value, Decimal.value, zpow_natCast]
      show ((10 ^ 1 * (10 ^ e * n + 0) + 0 : ℕ) : ℚ) * 10 ^ (-1 : ℤ) = n * 10 ^ e
      push_cast
      ring
    rw [← hnumber, String.toList_append, String.toList_ofList]
    refine isReal_of_parts (splitWhole_of_all ?_ ?_ rfl) rfl rfl rfl
    · simpa using hall
    · obtain ⟨c, hc, hne⟩ := hhead
      exact ⟨c, by rw [List.head?_append, hc]; rfl, hne⟩
  split
  · -- a number below one
    rename_i hneg hshort
    generalize hzeros : List.replicate ((-e).toNat - digits.length) '0' = zeros
    have hdecimal : Numeral.decimal ⟨false, ['0'], some (zeros ++ digits), none⟩ = ⟨n, e⟩ := by
      rw [Numeral.decimal, Option.getD_some, natOfDigits_append, natOfDigits_append, hvalue,
        ← hzeros, natOfDigits_zeros, List.length_append, List.length_replicate]
      refine congrArg₂ Decimal.mk ?_ ?_
      · show 10 ^ _ * 0 + (10 ^ _ * 0 + n) = n
        omega
      · show (0 : ℤ) - _ = e
        omega
    simp only [← hdecimal, String.toList_append, String.toList_ofList]
    show IsReal ('0' :: '.' :: (zeros ++ digits)) _
    refine isReal_of_parts rfl (splitFraction_digits ?_ ?_) rfl rfl
    · rw [← hzeros]
      simpa using hall
    · exact List.append_ne_nil_of_right_ne_nil _ (List.ne_nil_of_length_pos hlength)
  · -- a point between the digits
    rename_i hneg hlong
    generalize hplace : digits.length - (-e).toNat = place
    have hdecimal : Numeral.decimal ⟨false, digits.take place, some (digits.drop place), none⟩ =
        ⟨n, e⟩ := by
      rw [Numeral.decimal, Option.getD_some, List.take_append_drop, hvalue, List.length_drop]
      refine congrArg (Decimal.mk n) ?_
      show (0 : ℤ) - _ = e
      omega
    simp only [← hdecimal, String.toList_append, String.toList_ofList, List.append_assoc]
    show IsReal (digits.take place ++ '.' :: digits.drop place) _
    refine isReal_of_parts (splitWhole_of_all ?_ ?_ rfl) (splitFraction_digits ?_ ?_) rfl rfl
    · exact all_take hall place
    · obtain ⟨c, hc, hne⟩ := hhead
      exact ⟨c, by rw [List.head?_take, if_neg (by omega), hc], hne⟩
    · exact all_drop hall place
    · exact List.ne_nil_of_length_pos (by rw [List.length_drop]; omega)

theorem isReal_exponentText {d : Decimal} (hd : d.digits ≠ 0) :
    IsReal (Layout.document.exponentText d).toList d.value := by
  obtain ⟨n, e⟩ := d
  have hall := all_isDigit_toDigits n
  have hhead := head?_toDigits hd
  have hvalue : Decimal.natOfDigits (Nat.toDigits 10 n) = n :=
    Nat.ofDigitChars_toDigits (by decide) (by decide)
  have hlength : 0 < (Nat.toDigits 10 n).length := Nat.length_toDigits_pos
  unfold Layout.exponentText Decimal.leading
  dsimp only
  generalize Nat.toDigits 10 n = digits at *
  generalize hleading : e + (digits.length : ℤ) - 1 = leading
  have hhead' : ∃ c, (digits.take 1).head? = some c ∧ c ≠ '0' := by
    obtain ⟨c, hc, hne⟩ := hhead
    exact ⟨c, by rw [List.head?_take, if_neg one_ne_zero, hc], hne⟩
  have hexponent := splitExponent_written leading
  split
  · -- a single digit
    rename_i hshort
    have hdecimal : Numeral.decimal ⟨false, digits.take 1, none, some leading⟩ = ⟨n, e⟩ := by
      rw [Numeral.decimal, Option.getD_none, List.append_nil, List.take_of_length_le hshort, hvalue]
      refine congrArg (Decimal.mk n) ?_
      show leading - (0 : ℕ) = e
      omega
    simp only [← hdecimal, String.toList_append, String.toList_ofList, List.append_assoc,
      Nat.toString_eq_repr, Nat.repr_eq_ofList_toDigits]
    exact isReal_of_parts (splitWhole_of_all (all_take hall 1) hhead' rfl) rfl hexponent rfl
  · rename_i hlong
    have hdecimal : Numeral.decimal ⟨false, digits.take 1, some (digits.drop 1), some leading⟩ =
        ⟨n, e⟩ := by
      rw [Numeral.decimal, Option.getD_some, List.take_append_drop, hvalue, List.length_drop]
      refine congrArg (Decimal.mk n) ?_
      show leading - (digits.length - 1 : ℕ) = e
      omega
    simp only [← hdecimal, String.toList_append, String.toList_ofList, List.append_assoc,
      Nat.toString_eq_repr, Nat.repr_eq_ofList_toDigits]
    refine isReal_of_parts (splitWhole_of_all (all_take hall 1) hhead' rfl)
      (splitFraction_of_all (all_drop hall 1) ?_ rfl) hexponent rfl
    exact List.ne_nil_of_length_pos (by rw [List.length_drop]; omega)

theorem isReal_positiveText {x : Float} {b : Binary} (hb : b.IsDouble)
    (hx : Binary.ofBits x.toBits = b) : ∃ q, b.Catches q ∧
      IsReal (Layout.document.positiveText x).toList q := by
  have hcatches := Decimal.catches_ofBinary hb .toEven
  have hdigits : (Decimal.ofBinary b .toEven).digits ≠ 0 := by
    intro hzero
    have hlow := (Decimal.ten_lt_low hb).trans_le hcatches.low_le
    rw [Decimal.value, hzero, Nat.cast_zero, zero_mul] at hlow
    exact absurd hlow (by norm_num)
  refine ⟨_, hcatches, ?_⟩
  unfold Layout.positiveText
  dsimp only
  rw [hx]
  split
  · exact isReal_positionalText hdigits
  · exact isReal_exponentText hdigits

theorem render_toFloat {b : Binary} (hb : b.IsDouble) (s : Sign) :
    (Layout.document.render (b.toFloat s hb)).toList = (if s == .negative then "-" else "").toList ++
      (Layout.document.positiveText (b.toFloat .positive hb)).toList := by
  unfold Layout.render
  dsimp only
  rw [Binary.isNaN_toFloat, Binary.isInf_toFloat, Binary.toFloat_beq_zero,
    (Binary.parts_toFloat hb).2, Binary.abs_toFloat, if_neg Bool.false_ne_true,
    if_neg Bool.false_ne_true, if_neg Bool.false_ne_true, String.toList_append]

/-- A finite double is read back. -/
theorem readsBack {x : Float} (hnumber : x.isNaN = false) (hfinite : x.isInf = false) :
    ReadsBack x := by
  have hboth : x.isFinite = true := by rw [Double.isFinite_eq, hnumber, hfinite]; rfl
  refine ⟨hnumber, hfinite, ?_⟩
  rcases Double.unpack_cases hboth with ⟨s, hs⟩ | ⟨s, b, hb, hs⟩
  · rw [Double.eq_zero_of_unpack hs]
    cases s <;> rfl
  rw [Double.eq_toFloat_of_unpack hs]
  obtain ⟨q, hq, numeral, hnumeral, hunsigned, hmarked, rfl⟩ :=
    isReal_positiveText hb (Binary.parts_toFloat hb (s := .positive)).1
  have hsplit := splitNumeral_sign (s == .negative) hnumeral hunsigned
  rw [← render_toFloat] at hsplit
  have hreal : ofNumeral ⟨s == .negative, numeral.whole, numeral.fraction, numeral.exponent⟩ =
      some (.real (b.toFloat s hb)) := by
    have hreal := @ofNumeral_real ⟨s == .negative, numeral.whole, numeral.fraction,
      numeral.exponent⟩ hmarked _ hb hq
    cases s <;> exact hreal
  have hread := @readValue_of_splitNumeral _ [] _ _ hsplit hreal rfl
    (2 * (Layout.document.render (b.toFloat s hb)).toList.length + 1) maxDepth
  rw [List.append_nil] at hread
  unfold read?
  dsimp only
  rw [hread]
  rfl

end Json
end Rulebook
