import Mathlib.Data.List.Basic
import Rulebook.Compilation
import Rulebook.Proofs.Surface.Seams

/-!
# The ends of statements

The text of a statement in a script is a line that ends in code (`run_closeStatement`). Whether it
ends the statement is decided by its last character, which is right unless that character belongs to
a comment or closes an object literal: `terminated_closeStatement_iff`.
-/

namespace Rulebook.Compilation

open Surface Surface.Mode

/-! ### Line comments -/

theorem eq_slash_of_step {mode : Mode} {c : Char} (h : mode.step c = .slash) : c = '/' := by
  have hcode : ofCode c = .slash → c = '/' := by
    unfold ofCode
    split
    · rintro ⟨⟩
    · split
      · intro
        assumption
      · rintro ⟨⟩
  cases mode with
  | code => exact hcode h
  | slash =>
    simp only [step] at h
    split at h
    · cases h
    · split at h
      · cases h
      · exact hcode h
  | literal quote =>
    simp only [step] at h
    split at h
    · cases h
    · split at h <;> cases h
  | escape quote => cases h
  | remark => simp only [step] at h; split at h <;> cases h
  | block => simp only [step] at h; split at h <;> cases h
  | star => simp only [step] at h; split at h <;> first | cases h | (split at h <;> cases h)

theorem cases_of_step_eq_remark {mode : Mode} {c : Char} (h : mode.step c = .remark) :
    mode = .remark ∧ c ≠ '\n' ∨ mode = .slash ∧ c = '/' := by
  have hcode : ofCode c ≠ .remark := by
    unfold ofCode
    split
    · simp
    · split <;> simp
  cases mode with
  | code => exact absurd h hcode
  | slash =>
    simp only [step] at h
    split at h
    · exact .inr ⟨rfl, ‹_›⟩
    · split at h
      · cases h
      · exact absurd h hcode
  | literal quote =>
    simp only [step] at h
    split at h
    · cases h
    · split at h <;> cases h
  | escape quote => cases h
  | remark =>
    simp only [step] at h
    split at h
    · cases h
    · exact .inl ⟨rfl, ‹_›⟩
  | block => simp only [step] at h; split at h <;> cases h
  | star => simp only [step] at h; split at h <;> first | cases h | (split at h <;> cases h)

/-- The line comment in which a text ends. -/
theorem exists_line_of_run {s : List Char} (h : run .code s = .remark) :
    ∃ front words, s = front ++ '/' :: '/' :: words ∧ '\n' ∉ words := by
  induction s using List.reverseRecOn with
  | nil => cases h
  | append_singleton s c ih =>
    rw [run_append, run_cons, run_nil] at h
    rcases cases_of_step_eq_remark h with ⟨hmode, hc⟩ | ⟨hmode, rfl⟩
    · obtain ⟨front, words, rfl, hwords⟩ := ih hmode
      refine ⟨front, words ++ [c], by simp, ?_⟩
      simp [hwords, Ne.symm hc]
    · -- the slash before this one is the last character of `s`
      induction s using List.reverseRecOn with
      | nil => cases hmode
      | append_singleton s d _ =>
        rw [run_append, run_cons, run_nil] at hmode
        obtain rfl := eq_slash_of_step hmode
        exact ⟨s, [], by simp, by simp⟩

theorem hasSlashes_append (front words : List Char) :
    hasSlashes (front ++ '/' :: '/' :: words) = true := by
  induction front with
  | nil => rfl
  | cons c front ih =>
    rw [List.cons_append, hasSlashes.eq_def]
    split
    · rfl
    · rename_i heq
      cases heq
      exact ih
    · rename_i heq
      cases heq

/-- A text that ends in a line comment has two slashes in its last line. -/
theorem hasSlashes_lastLine {s : List Char} (h : run .code s = .remark) :
    hasSlashes (lastLine s) = true := by
  obtain ⟨front, words, rfl, hwords⟩ := exists_line_of_run h
  have hline : ∀ c ∈ words.reverse, decide (c ≠ '\n') = true := by
    intro c hc
    rw [decide_eq_true_eq]
    rintro rfl
    exact hwords (List.mem_reverse.1 hc)
  have hreverse : (front ++ '/' :: '/' :: words).reverse =
      words.reverse ++ '/' :: '/' :: front.reverse := by simp
  have hhead : (words.reverse ++ '/' :: '/' :: front.reverse).head? ≠ some '\n' := by
    cases hrev : words.reverse with
    | nil => simp
    | cons c rest =>
      have := hline c (by simp [hrev])
      simpa using this
  have hlast : lastLine (front ++ '/' :: '/' :: words) =
      (front.reverse.takeWhile (· ≠ '\n')).reverse ++ '/' :: '/' :: words := by
    rw [lastLine]
    simp only [hreverse, if_neg hhead, List.takeWhile_append_of_pos hline]
    simp
  rw [hlast]
  exact hasSlashes_append _ _

/-- After `closeLine` the scan is in code. -/
theorem run_closeLine {s : List Char} (h : (run .code s).isOutside = true) :
    (run .code (closeLine s)).isOutside = true ∧ run .code (closeLine s) ≠ .remark := by
  unfold closeLine
  split
  · have hcode : run .code (s ++ ['\n']) = .code := by
      rw [run_append]
      cases hmode : run .code s <;> rw [hmode] at h <;> first | rfl | cases h
    rw [hcode]
    exact ⟨rfl, by simp⟩
  · rename_i hslashes
    exact ⟨h, fun hrun => hslashes (hasSlashes_lastLine hrun)⟩

/-! ### The line of a statement -/

theorem cut_indentation (depth : Nat) :
    Whole (indentation depth).toList ∧
      cutFrom false (indentation depth).toList = List.replicate (4 * depth) (.other ' ') := by
  have hseams : ∀ c ∈ List.replicate (4 * depth) ' ', c ∈ seams := by
    intro c hc
    rw [List.eq_of_mem_replicate hc]
    decide
  obtain ⟨hwhole, hcut⟩ := whole_of_seams hseams
  rw [indentation, String.toList_ofList]
  exact ⟨hwhole, by rw [hcut, List.map_replicate]⟩

/-- What a statement in script form becomes: itself without the blanks around it, with a semicolon
if its last character is neither a semicolon nor a closing brace. -/
def ended (statement : List Char) : List Char :=
  let statement := Text.trim statement
  if statement.getLast? = some ';' ∨ statement.getLast? = some '\x7d' then statement
  else closeLine statement ++ [';']

variable {statement : List Char}

theorem toList_closeStatement (hne : Text.trim statement ≠ []) (depth : Nat) : (closeStatement depth statement).toList =
      (indentation depth).toList ++ (ended statement ++ ['\n']) := by
  rw [closeStatement, ended]
  cases hlast : (Text.trim statement).getLast? with
  | none => exact absurd (List.getLast?_eq_none_iff.1 hlast) hne
  | some last =>
    simp only [Option.some.injEq]
    split <;> simp

theorem isOutside_ended (h : (run .code statement).isOutside = true) :
    (run .code (ended statement)).isOutside = true := by
  have hstatement := isOutside_trim h
  rw [ended]
  split
  · exact hstatement
  · obtain ⟨hrun, hremark⟩ := run_closeLine hstatement
    rw [run_append]
    cases hmode : run .code (closeLine (Text.trim statement)) with
    | code => rfl
    | slash => rfl
    | remark => exact absurd hmode hremark
    | _ =>
      rw [hmode] at hrun
      cases hrun

/-- The line of a statement can stand in front of anything and leaves the scan in code, and its pieces
are those of the ended statement between blanks. -/
theorem cut_closeStatement (h : (run .code statement).isOutside = true)
    (hne : Text.trim statement ≠ []) (depth : Nat) :
    Whole (closeStatement depth statement).toList ∧
      run .code (closeStatement depth statement).toList = .code ∧
      cut (closeStatement depth statement) =
        List.replicate (4 * depth) (.other ' ') ++ cutFrom false (ended statement) ++
          [.other '\n'] := by
  have hended := isOutside_ended h
  obtain ⟨hindentation, hspaces⟩ := cut_indentation depth
  have hline := cutFrom_concat_seam (e := '\n') (by decide) hended (.inl rfl)
  have hwhole := whole_concat_seam (e := '\n') (by decide) hended (.inl rfl)
  rw [cut, toList_closeStatement hne]
  refine ⟨hindentation.append hwhole, ?_, ?_⟩
  · have hplain : run .code (indentation depth).toList = .code := by
      rw [indentation, String.toList_ofList]
      refine run_code_of_plain ?_
      rw [List.all_eq_true]
      intro c hc
      rw [List.eq_of_mem_replicate hc]
      rfl
    rw [run_append, hplain, run_append]
    cases hmode : run .code (ended statement) <;> rw [hmode] at hended <;>
      first | rfl | cases hended
  · rw [hindentation, hspaces, hline, List.append_assoc]

/-! ### What ends a statement -/

/-- What the pieces of a text say about its end. -/
structure Ending where
  /-- For every open brace, the innermost first, whether it opens a block. -/
  blocks : List Bool := []
  /-- Whether the last piece that is neither a comment nor a blank is a semicolon or closes a
  block. -/
  ended : Bool := false

/-- The ending after one more piece. -/
def Ending.after (ending : Ending) : Piece → Ending
  | .comment _ => ending
  | .objectOpen => { blocks := false :: ending.blocks, ended := false }
  | .brace => { blocks := true :: ending.blocks, ended := false }
  | .other c =>
    if Text.isBlank c then ending
    else if c = '\x7d' then
      { blocks := ending.blocks.tail, ended := ending.blocks.head? == some true }
    else { ending with ended := c == ';' }
  | _ => { ending with ended := false }

/-- The ending of a text that is given by its pieces. -/
def endingOf (pieces : List Piece) : Ending := pieces.foldl Ending.after {}

/-- Whether a text ends, comments and blanks apart, with a semicolon or with a brace that closes a
block, outside comments and literals. -/
def Terminated (text : String) : Prop := (endingOf (cut text)).ended = true

/-- Whether the last character of a text is a semicolon or a closing brace that terminates nothing:
it stands in a line comment behind code that is not terminated, or it is a brace that does not close
a block. -/
def Deceptive (pieces : List Piece) : Prop :=
  (∃ words, pieces.getLast? = some (.comment ('/' :: '/' :: words)) ∧
      (words.getLast? = some ';' ∨ words.getLast? = some '\x7d') ∧
      (endingOf pieces.dropLast).ended = false) ∨
    pieces.getLast? = some (.other '\x7d') ∧
      (endingOf pieces.dropLast).blocks.head? ≠ some true

theorem endingOf_concat (pieces : List Piece) (piece : Piece) :
    endingOf (pieces ++ [piece]) = (endingOf pieces).after piece := by
  simp [endingOf]

theorem endingOf_line (count : Nat) (pieces : List Piece) :
    endingOf (List.replicate count (.other ' ') ++ pieces ++ [.other '\n']) = endingOf pieces := by
  have hspaces : endingOf (List.replicate count (.other ' ')) = {} := by
    induction count with
    | zero => rfl
    | succ count ih =>
      rw [List.replicate_succ', endingOf_concat, ih]
      rfl
  rw [endingOf_concat, endingOf, List.foldl_append]
  show (pieces.foldl Ending.after (endingOf _)).after _ = _
  rw [hspaces]
  rfl

/-- The last characters of the pieces of a text are those of the text. -/
theorem getLast?_of_cutFrom {s : List Char} {piece : Piece} {c : Char}
    (h : (cutFrom false s).getLast? = some piece) (hc : piece.source.getLast? = some c) :
    s.getLast? = some c := by
  obtain ⟨front, hfront⟩ := List.getLast?_eq_some_iff.1 h
  rw [← source_cutFrom false s, hfront, List.flatMap_append, List.flatMap_singleton,
    List.getLast?_append, hc]
  rfl

theorem getLast?_of_deceptive {s : List Char} (h : Deceptive (cutFrom false s)) :
    s.getLast? = some ';' ∨ s.getLast? = some '\x7d' := by
  rcases h with ⟨words, hlast, hwords, -⟩ | ⟨hlast, -⟩
  · have hsource {c : Char} (hc : words.getLast? = some c) :
        (Piece.comment ('/' :: '/' :: words)).source.getLast? = some c := by
      show ('/' :: '/' :: words).getLast? = some c
      simp [List.getLast?_cons, hc]
    exact hwords.imp (fun h => getLast?_of_cutFrom hlast (hsource h))
      fun h => getLast?_of_cutFrom hlast (hsource h)
  · exact .inr (getLast?_of_cutFrom hlast rfl)

/-- A text whose last character is a semicolon or a closing brace is terminated unless it is
deceptive. -/
theorem ended_iff_not_deceptive {front : List Char} {last : Char}
    (h : (run .code (front ++ [last])).isOutside = true) (hlast : last = ';' ∨ last = '\x7d') :
    (endingOf (cutFrom false (front ++ [last]))).ended = true ↔
      ¬ Deceptive (cutFrom false (front ++ [last])) := by
  have hseam : last ∈ seams := by rcases hlast with rfl | rfl <;> decide
  have hfront : (run .code front).isOutside = true := by
    rw [run_append] at h
    refine Proper.isOutside_of_step (Proper.run (show Proper .code from trivial) front) ?_ ?_ h
    · rcases hlast with rfl | rfl <;> decide
    · rcases hlast with rfl | rfl <;> decide
  by_cases hremark : run .code front = .remark
  · -- the last character belongs to a line comment
    have hrun : run .code (front ++ [last]) = .remark := by
      rw [run_append, hremark]
      rcases hlast with rfl | rfl <;> rfl
    obtain ⟨pieces, words, hpieces⟩ := exists_remark_of_run hrun false
    have hsource : pieces.flatMap Piece.source ++ '/' :: '/' :: words = front ++ [last] := by
      rw [← source_cutFrom false (front ++ [last]), hpieces]
      simp [Piece.source]
    have hwords : words.getLast? = some last := by
      have hboth := congrArg List.getLast? hsource
      cases hw : words.getLast? with
      | none =>
        rw [List.getLast?_eq_none_iff.1 hw] at hboth
        have hslash : '/' = last := by simpa using hboth
        rcases hlast with rfl | rfl <;> cases hslash
      | some c => simpa [List.getLast?_append, List.getLast?_cons, hw] using hboth
    have hmark : words.getLast? = some ';' ∨ words.getLast? = some '\x7d' := by
      rcases hlast with rfl | rfl
      · exact .inl hwords
      · exact .inr hwords
    rw [hpieces, endingOf_concat]
    simp [Deceptive, Ending.after, hmark]
  · rw [cutFrom_concat_seam hseam hfront (.inr hremark), endingOf_concat]
    rcases hlast with rfl | rfl
    · have hblank : Text.isBlank ';' = false := by decide
      simp [Deceptive, Ending.after, hblank]
    · have hblank : Text.isBlank '\x7d' = false := by decide
      simp [Deceptive, Ending.after, hblank]

/-- A statement that is not blank and whose text ends outside literals and block comments becomes a
line that ends in code. The line is terminated, unless the last character of the script form is a
semicolon or a closing brace that terminates nothing. -/
theorem terminated_closeStatement_iff {text : String}
    (hclosed : ∀ piece ∈ cut text, piece.closed = true)
    (hne : Text.trim (toScript text).toList ≠ []) (depth : Nat) :
    run .code (closeStatement depth (toScript text).toList).toList = .code ∧
      (Terminated (closeStatement depth (toScript text).toList) ↔
        ¬ Deceptive (cutFrom false (Text.trim (toScript text).toList))) := by
  have hrun : (run .code (toScript text).toList).isOutside = true := by
    rw [run_toScript hclosed]
    exact (closed_iff false text.toList).1 hclosed
  obtain ⟨-, hcode, hcut⟩ := cut_closeStatement hrun hne depth
  refine ⟨hcode, ?_⟩
  have hstatement := isOutside_trim hrun
  rw [Terminated, hcut, endingOf_line, ended]
  generalize Text.trim (toScript text).toList = s at hstatement hne ⊢
  obtain ⟨front, last, rfl⟩ := (List.eq_nil_or_concat' s).resolve_left hne
  simp only [List.getLast?_concat, Option.some.injEq]
  split
  · exact ended_iff_not_deceptive hstatement ‹_›
  · rename_i hlast
    obtain ⟨hclose, hremark⟩ := run_closeLine hstatement
    have hnot : ¬ Deceptive (cutFrom false (front ++ [last])) := by
      intro hdeceptive
      have := getLast?_of_deceptive hdeceptive
      simp only [List.getLast?_concat, Option.some.injEq] at this
      exact hlast this
    rw [cutFrom_concat_seam (by decide) hclose (.inr hremark), endingOf_concat]
    have hblank : Text.isBlank ';' = false := by decide
    simp [Ending.after, hnot, hblank]

theorem cut_remark : cut "x // a;" =
    [.word false ['x'], .other ' ', .comment ['/', '/', ' ', 'a', ';']] := by
  show cutFrom false ['x', ' ', '/', '/', ' ', 'a', ';'] = _
  rw [cutFrom_cons]
  show _ :: cutFrom false [' ', '/', '/', ' ', 'a', ';'] = _
  rw [cutFrom_cons]
  show _ :: _ :: cutFrom false ['/', '/', ' ', 'a', ';'] = _
  rw [cutFrom_cons]
  show _ :: _ :: _ :: cutFrom false [] = _
  rw [cutFrom]
  rfl

theorem toScript_remark : toScript "x // a;" = "x // a;" := by
  rw [toScript, cut_remark]
  rfl

/-- A semicolon in a comment keeps a statement from being terminated. -/
theorem not_terminated_remark :
    (∀ piece ∈ cut "x // a;", piece.closed = true) ∧
      Text.trim (toScript "x // a;").toList ≠ [] ∧
      ¬ Terminated (closeStatement 1 (toScript "x // a;").toList) := by
  have hclosed : ∀ piece ∈ cut "x // a;", piece.closed = true := by
    rw [cut_remark]
    exact List.all_eq_true.1 (by decide)
  have hne : Text.trim (toScript "x // a;").toList ≠ [] := by
    rw [toScript_remark]
    decide
  refine ⟨hclosed, hne, fun hterminated => ?_⟩
  refine (terminated_closeStatement_iff hclosed hne 1).2.1 hterminated ?_
  rw [toScript_remark]
  show Deceptive (cut "x // a;")
  rw [cut_remark]
  exact .inl ⟨[' ', 'a', ';'], rfl, .inl rfl, rfl⟩

end Rulebook.Compilation
