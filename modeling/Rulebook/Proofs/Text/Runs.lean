/-!
# Runs of characters

The longest run of characters of one class at the start of a text. Another text does not prolong it
if it begins with a character outside of the class.
-/

namespace Rulebook

variable {p : Char → Bool} {s rest : List Char}

theorem takeWhile_of_all (h : s.all p = true) : s.takeWhile p = s := by
  rw [← List.append_nil s, List.takeWhile_append_of_pos (List.all_eq_true.1 h)]
  rfl

theorem dropWhile_of_all (h : s.all p = true) : s.dropWhile p = [] := by
  rw [← List.append_nil s, List.dropWhile_append_of_pos (List.all_eq_true.1 h)]
  rfl

theorem takeWhile_append_of_head (h : rest.head?.any p = false) (s : List Char) :
    (s ++ rest).takeWhile p = s.takeWhile p := by
  induction s with
  | nil =>
    cases rest with
    | nil => rfl
    | cons c rest =>
      rw [List.nil_append, List.takeWhile_cons, if_neg (by simpa using h), List.takeWhile_nil]
  | cons c s ih => rw [List.cons_append, List.takeWhile_cons, List.takeWhile_cons, ih]

theorem dropWhile_append_of_head (h : rest.head?.any p = false) (s : List Char) :
    (s ++ rest).dropWhile p = s.dropWhile p ++ rest := by
  induction s with
  | nil =>
    cases rest with
    | nil => rfl
    | cons c rest =>
      rw [List.nil_append, List.dropWhile_cons, if_neg (by simpa using h), List.dropWhile_nil,
        List.nil_append]
  | cons c s ih =>
    rw [List.cons_append, List.dropWhile_cons, List.dropWhile_cons]
    split
    · exact ih
    · rfl

theorem takeWhile_append_stop (hs : s.all p = true) (hrest : rest.head?.any p = false) :
    (s ++ rest).takeWhile p = s := by
  rw [takeWhile_append_of_head hrest, takeWhile_of_all hs]

theorem dropWhile_append_stop (hs : s.all p = true) (hrest : rest.head?.any p = false) :
    (s ++ rest).dropWhile p = rest := by
  rw [dropWhile_append_of_head hrest, dropWhile_of_all hs, List.nil_append]

end Rulebook
