import Mathlib.Data.String.Basic
import Mathlib.Tactic.SplitIfs

/-!
# The order of texts by their bytes

Texts are compared by their code points. UTF-8 keeps this order: the bytes of the smaller text are
smaller in the order of a dictionary (`bytes_lt_bytes`).
-/

namespace Rulebook.Text

/-- The bytes of a text in UTF-8. -/
def bytes (text : String) : List UInt8 := text.toUTF8.data.toList

theorem bytes_eq_flatMap (text : String) :
    bytes text = text.toList.flatMap String.utf8EncodeChar := by
  have h : text.toList.utf8Encode = text.toByteArray := String.utf8Encode_toList
  rw [bytes, String.toUTF8, ← h, List.utf8Encode, List.toList_data_toByteArray]

/-- The bytes of a smaller character are smaller, whatever follows them. A shorter encoding has the
smaller first byte; encodings of equal length are compared six bits after six bits. -/
theorem encoding_lt_encoding {c d : Char} (h : c < d) (rest rest' : List UInt8) :
    String.utf8EncodeChar c ++ rest < String.utf8EncodeChar d ++ rest' := by
  have hlt : c.val.toNat < d.val.toNat := h
  have hbound : d.val.toNat < 0x110000 := by rcases d.valid with h | h <;> omega
  unfold String.utf8EncodeChar
  generalize c.val.toNat = m at *
  generalize d.val.toNat = n at *
  dsimp only
  split_ifs <;>
    simp (disch := omega) only [List.cons_append, List.nil_append, List.cons_lt_cons_iff,
      UInt8.lt_iff_toNat_lt, UInt8.toNat_ofNat', ← UInt8.toNat_inj, Nat.mod_eq_of_lt,
      Nat.add_lt_add_iff_right, Nat.add_right_cancel_iff] <;>
    omega

/-- What comes after the same beginning decides. -/
theorem append_lt_append (first : List UInt8) {rest rest' : List UInt8} (h : rest < rest') :
    first ++ rest < first ++ rest' := by
  induction first with
  | nil => exact h
  | cons byte first ih => exact List.cons_lt_cons_iff.mpr (.inr ⟨rfl, ih⟩)

/-- The order of texts is the order of their bytes. -/
theorem bytes_lt_bytes {first second : String} (h : first < second) : bytes first < bytes second := by
  have hlist : first.toList < second.toList := String.lt_iff_toList_lt.mp h
  rw [bytes_eq_flatMap, bytes_eq_flatMap]
  generalize first.toList = s at hlist
  generalize second.toList = t at hlist
  induction s generalizing t with
  | nil =>
    cases t with
    | nil => exact absurd hlist (List.lt_irrefl _)
    | cons d t =>
      have hne : String.utf8EncodeChar d ≠ [] := String.utf8EncodeChar_ne_nil
      obtain ⟨byte, others, hbytes⟩ := List.exists_cons_of_ne_nil hne
      rw [List.flatMap_cons, hbytes]
      exact List.nil_lt_cons _ _
  | cons c s ih =>
    cases t with
    | nil => exact absurd hlist (List.not_lt_nil _)
    | cons d t =>
      rw [List.flatMap_cons, List.flatMap_cons]
      obtain hlt | ⟨rfl, hrest⟩ := List.cons_lt_cons_iff.mp hlist
      · exact encoding_lt_encoding hlt _ _
      · exact append_lt_append _ (ih t hrest)

end Rulebook.Text
