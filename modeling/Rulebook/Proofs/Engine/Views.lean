import Rulebook.Engine.Basic
import Rulebook.Proofs.Value.Agreement

/-!
# Two views of a document

The document of an engine can be seen as a JSON tree and as a value. The tree is read as JSON has it, the
value without escapes and with integers of 32 bits. What the two have in common is said by the structure
of the document: `Engine.views_agree_iff`.
-/

namespace Rulebook

open Json Json.Written

theorem Json.sorted_eq_null_iff {json : Json} : json.sorted = .null ↔ json = .null := by
  cases json <;> simp [sorted]

namespace Json.Written

variable {tree : Written}

theorem verbatim_eq_null_iff : tree.verbatim = .null ↔ tree = .null := by
  cases tree <;> simp [verbatim]

theorem standard_eq_null_iff {json : Json} (h : tree.standard = some json) :
    json = .null ↔ tree = .null := by
  cases tree with
  | null =>
    cases h
    exact iff_of_true rfl rfl
  | bool b =>
    cases h
    exact iff_of_false nofun nofun
  | numeral n =>
    refine iff_of_false (fun hnull => ?_) nofun
    subst hnull
    rcases Numeral.ofNumeral_cases h with ⟨-, -, heq⟩ | ⟨heq, -⟩ <;> cases heq
  | string inside =>
    obtain ⟨s, -, rfl⟩ := Option.map_eq_some_iff.1 h
    exact iff_of_false nofun nofun
  | array items =>
    obtain ⟨found, -, rfl⟩ := Option.map_eq_some_iff.1 h
    exact iff_of_false nofun nofun
  | object members =>
    obtain ⟨found, -, rfl⟩ := Option.map_eq_some_iff.1 h
    exact iff_of_false nofun nofun

end Json.Written

namespace Engine

variable {engine : Engine} {tree : Written}

theorem value_eq_verbatim (h : Denotes engine.document tree) : engine.value = tree.verbatim := by
  rw [value, Verbatim.read?_of_denotes h, Option.getD_some]

/-- The tree of a document is the value of its structure with its members in order. There is none if an
escape names no character, a number is beyond the doubles or brackets are nested too deeply. -/
theorem tree_eq_ok_iff (h : Denotes engine.document tree) {json : Json} : engine.tree = .ok json ↔
    ∃ standard, tree.standard = some standard ∧ tree.nesting ≤ maxDepth ∧ json = standard.sorted := by
  rw [Engine.tree, Source.tree, read?_of_denotes h]
  by_cases hnesting : tree.nesting ≤ maxDepth
  · rw [if_pos hnesting]
    cases tree.standard with
    | none => exact iff_of_false nofun nofun
    | some standard =>
      constructor
      · intro hjson
        cases hjson
        exact ⟨standard, rfl, hnesting, rfl⟩
      · rintro ⟨_, ⟨⟩, -, rfl⟩
        rfl
  · rw [if_neg hnesting]
    exact iff_of_false nofun fun ⟨_, _, hle, _⟩ => hnesting hle

end Engine
end Rulebook
