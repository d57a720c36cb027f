import Rulebook.Compilation
import Rulebook.Proofs.Json.Canonical

/-!
# Configurations of rearranged values

A configuration is read from a value by looking up names, except for the document, of which the whole
text is taken, with the members in order. So values that differ only in the order of their fields
describe the same configuration, and the same script is made of it, whatever that order is
(`canonical_document`). Only the values that a declaration allows are taken over as they are.
-/

namespace Rulebook

/-- Both are the same error, or neither is one and what they give is related. -/
inductive Corresponds {ε α β : Type} (R : α → β → Prop) : Except ε α → Except ε β → Prop where
  | error (err : ε) : Corresponds R (.error err) (.error err)
  | ok {a : α} {b : β} (h : R a b) : Corresponds R (.ok a) (.ok b)

section
variable {ε α β γ δ : Type} {R : α → β → Prop} {S : γ → δ → Prop}

/-- Related steps after results that agree. -/
theorem Corresponds.bind {first : Except ε α} {first' : Except ε β} {next : α → Except ε γ}
    {next' : β → Except ε δ} (h : Corresponds R first first')
    (hnext : ∀ a b, R a b → Corresponds S (next a) (next' b)) :
    Corresponds S (first >>= next) (first' >>= next') := by
  cases h with
  | error err => exact .error err
  | ok h => exact hnext _ _ h

/-- Related steps after the same result. -/
theorem Corresponds.bind_same {first : Except ε α} {next : α → Except ε γ} {next' : α → Except ε δ}
    (hnext : ∀ a, Corresponds S (next a) (next' a)) :
    Corresponds S (first >>= next) (first >>= next') := by
  cases first with
  | error err => exact .error err
  | ok a => exact hnext a

theorem Corresponds.imp {first : Except ε α} {second : Except ε β} {R' : α → β → Prop}
    (h : Corresponds R first second) (himp : ∀ a b, R a b → R' a b) : Corresponds R' first second := by
  cases h with
  | error err => exact .error err
  | ok h => exact .ok (himp _ _ h)

theorem Corresponds.map {first : Except ε α} {first' : Except ε β} {f : α → γ} {g : β → δ}
    (h : Corresponds R first first') (hf : ∀ a b, R a b → S (f a) (g b)) :
    Corresponds S (first.map f) (first'.map g) := by
  cases h with
  | error err => exact .error err
  | ok h => exact .ok (hf _ _ h)

end

namespace Value

/-- Rearranged values have the same canonical text, if they have one. -/
theorem Rearranged.canonicalText_eq {value value' : Value} (h : Rearranged value value') :
    Configuration.canonicalText value = Configuration.canonicalText value' := by
  have hrel := rel_toJson h
  unfold Configuration.canonicalText
  generalize toJson value = found at hrel ⊢
  generalize toJson value' = found' at hrel ⊢
  cases hrel with
  | none => rfl
  | some h => exact congrArg (fun json : Json => some json.compact) h.sorted_eq

end Value

open Value

/-! ### Rules -/

/-- Rearranged items have the same texts. -/
theorem textsOf?_eq {items items' : List Value} (h : List.Forall₂ Rearranged items items') :
    textsOf? items = textsOf? items' := by
  induction h with
  | nil => rfl
  | @cons first first' rest rest' hfirst _ ih =>
    cases hfirst.matches with
    | same => cases first <;> simp [textsOf?, ih]
    | list | record => rfl

/-- Rearranged values describe the same rule. -/
theorem Rule.ofValue_eq {value value' : Value} (h : Rearranged value value') :
    Rule.ofValue value = Rule.ofValue value' := by
  cases h.matches with
  | same | list => rfl
  | record hfields =>
    have hcondition : readCondition _ = readCondition _ :=
      eq_of_rel (hfields "condition") (fun _ _ _ => rfl) (fun _ _ => rfl)
    have hname : readName _ = readName _ :=
      eq_of_rel (hfields "name") (fun _ _ _ => rfl) (fun _ _ => rfl)
    have hbody : readBody _ = readBody _ := eq_of_rel (hfields "body")
      (fun _ _ hitems => by simp only [readBody, textsOf?_eq hitems]) (fun _ _ => rfl)
    have hactions : readActions _ = readActions _ := eq_of_rel (hfields "executionActions")
      (fun _ _ hitems => by simp only [readActions, textsOf?_eq hitems]) (fun _ _ => rfl)
    simp only [Rule.ofValue, hcondition, hname, hbody, hactions]

/-! ### Declarations -/

namespace Parameter.Spec

/-- Declarations that differ only in the order of the fields of the values that they allow. -/
structure Alike (spec spec' : Spec) : Prop where
  rest : spec' = { spec with allowed := spec'.allowed }
  allowed : List.Forall₂ Rearranged spec.allowed spec'.allowed

theorem corresponds_readAllowed {found found' : Option Value} (h : Option.Rel Rearranged found found') :
    Corresponds (List.Forall₂ Rearranged) (readAllowed found) (readAllowed found') := by
  cases h with
  | none => exact .ok .nil
  | some h =>
    cases h.matches with
    | same =>
      rename_i value
      cases value with
      | list items => exact .ok (forall₂_refl items)
      | _ => exact .error _
    | list hitems => exact .ok hitems
    | record => exact .error _

theorem corresponds_ofMembers {member member' : String → Option Value}
    (h : ∀ name, Option.Rel Rearranged (member name) (member' name)) :
    Corresponds Alike (ofMembers member) (ofMembers member') := by
  have hlimit (field : String) : limit? field (member field) = limit? field (member' field) :=
    eq_of_rel (h field) (fun _ _ _ => rfl) (fun _ _ => rfl)
  have hname : readName _ = readName _ := eq_of_rel (h "name") (fun _ _ _ => rfl) (fun _ _ => rfl)
  have hkind : readKind _ = readKind _ := eq_of_rel (h "type") (fun _ _ _ => rfl) (fun _ _ => rfl)
  have hrequired : readRequired _ = readRequired _ :=
    eq_of_rel (h "required") (fun _ _ _ => rfl) (fun _ _ => rfl)
  have hpattern : readPattern _ = readPattern _ :=
    eq_of_rel (h "pattern") (fun _ _ _ => rfl) (fun _ _ => rfl)
  unfold ofMembers
  rw [hname, hkind, hrequired, hlimit, hlimit, hlimit, hlimit, hpattern]
  iterate 8 refine .bind_same fun _ => ?_
  exact (corresponds_readAllowed (h "allowed")).bind fun _ _ h => .ok ⟨rfl, h⟩

/-- Rearranged values describe the same declaration. -/
theorem corresponds_ofValue {value value' : Value} (h : Rearranged value value') :
    Corresponds (Corresponds Alike) (ofValue value) (ofValue value') := by
  cases h.matches with
  | same =>
    cases value with
    | record | list => exact .ok (corresponds_ofMembers fun name => rel_refl _)
    | _ => exact .error _
  | list hitems =>
    refine .ok (corresponds_ofMembers fun name => ?_)
    cases hitems with
    | nil => exact .none
    | cons hfirst => exact .some hfirst
  | record hfields => exact .ok (corresponds_ofMembers hfields)

end Parameter.Spec

/-! ### Configurations -/

namespace Configuration

/-- Configurations that differ only in the order of the fields of the values that declarations allow. -/
structure Alike (configuration configuration' : Configuration) : Prop where
  document : configuration.document = configuration'.document
  before : configuration.before = configuration'.before
  rules : configuration.rules = configuration'.rules
  after : configuration.after = configuration'.after
  parameters : List.Forall₂ Parameter.Spec.Alike configuration.parameters configuration'.parameters

/-- The same script is made of them. -/
theorem Alike.compile_eq {configuration configuration' : Configuration}
    (h : Alike configuration configuration') (registry : Registry) :
    compile configuration registry = compile configuration' registry := by
  simp only [compile, compileWithDocument, Compilation.scriptText, h.document, h.before, h.rules,
    h.after]

theorem readStatements_eq {items items' : List Value} (h : List.Forall₂ Rearranged items items')
    (field : String) (index : Nat) :
    readStatements field index items = readStatements field index items' := by
  induction h generalizing index with
  | nil => rfl
  | @cons first first' rest rest' hfirst _ ih =>
    cases hfirst.matches with
    | same => cases first <;> simp [readStatements, ih]
    | list | record => rfl

theorem readRules_eq {items items' : List Value} (h : List.Forall₂ Rearranged items items')
    (index : Nat) : readRules index items = readRules index items' := by
  induction h generalizing index with
  | nil => rfl
  | cons hfirst _ ih => simp only [readRules, Rule.ofValue_eq hfirst, ih]

theorem corresponds_readSpecs {items items' : List Value} (h : List.Forall₂ Rearranged items items')
    (index : Nat) : Corresponds (Corresponds (List.Forall₂ Parameter.Spec.Alike))
      (readSpecs index items) (readSpecs index items') := by
  induction h generalizing index with
  | nil => exact .ok (.ok .nil)
  | cons hfirst _ ih =>
    refine (Parameter.Spec.corresponds_ofValue hfirst).bind fun first first' hspec => ?_
    cases hspec with
    | error reason => exact .ok (.error _)
    | ok hspec =>
      exact (ih (index + 1)).bind fun rest rest' hrest => .ok (hrest.map fun _ _ h => .cons hspec h)

section
variable {fields fields' : Fields Value}
  (h : ∀ name, Option.Rel Rearranged (fields.get? name) (fields'.get? name))
include h

theorem corresponds_itemsOf (field : String) :
    Corresponds (List.Forall₂ Rearranged) (itemsOf fields field) (itemsOf fields' field) := by
  have hfield := h field
  unfold itemsOf
  generalize Fields.get? fields field = found at hfield ⊢
  generalize Fields.get? fields' field = found' at hfield ⊢
  cases hfield with
  | none => exact .ok .nil
  | some hfield =>
    cases hfield.matches with
    | same =>
      rename_i value
      cases value with
      | list items => exact .ok (forall₂_refl items)
      | null => exact .ok .nil
      | _ => exact .error _
    | list hitems => exact .ok hitems
    | record => exact .error _

theorem corresponds_statements (field : String) :
    Corresponds Eq (statements fields field) (statements fields' field) := by
  refine (corresponds_itemsOf h field).bind fun items items' hitems => ?_
  rw [readStatements_eq hitems]
  cases readStatements field 0 items' with
  | error err => exact .error err
  | ok found => exact .ok rfl

theorem documentOf_eq : documentOf fields = documentOf fields' := by
  have hdocument := h "document"
  unfold documentOf
  generalize Fields.get? fields "document" = found at hdocument ⊢
  generalize Fields.get? fields' "document" = found' at hdocument ⊢
  cases hdocument with
  | none => rfl
  | some hdocument =>
    have htext := hdocument.canonicalText_eq
    cases hdocument.matches with
    | same => rfl
    | list | record => simp only [htext]

theorem corresponds_readSections :
    Corresponds (fun found found' => found.1 = found'.1 ∧ List.Forall₂ Rearranged found.2 found'.2)
      (readSections fields) (readSections fields') := by
  unfold readSections
  rw [documentOf_eq h]
  refine .bind_same fun document => ?_
  refine (corresponds_statements h "preExecution").bind fun before _ hbefore => ?_
  refine (corresponds_statements h "postExecution").bind fun after _ hafter => ?_
  subst hbefore hafter
  refine (corresponds_itemsOf h "rules").bind fun rules rules' hrules => ?_
  rw [readRules_eq hrules]
  refine .bind_same fun rules => ?_
  exact (corresponds_itemsOf h "inputValidation").bind fun specs specs' hspecs => .ok ⟨rfl, hspecs⟩

end

/-- Rearranged values describe the same configuration, or have the same error. -/
theorem corresponds_ofValue {value value' : Value} (h : Rearranged value value') :
    Corresponds (Corresponds Alike) (ofValue value) (ofValue value') := by
  have hrecord {fields fields' : Fields Value}
      (h : ∀ name, Option.Rel Rearranged (fields.get? name) (fields'.get? name)) :
      Corresponds (Corresponds Alike) (ofValue (.record fields)) (ofValue (.record fields')) := by
    have hsections := corresponds_readSections h
    unfold ofValue
    dsimp only
    generalize readSections fields = found at hsections ⊢
    generalize readSections fields' = found' at hsections ⊢
    cases hsections with
    | error err => exact .ok (.error err)
    | @ok first second hboth =>
      obtain ⟨configuration, specs⟩ := first
      obtain ⟨configuration', specs'⟩ := second
      obtain ⟨rfl, hspecs⟩ := hboth
      refine (corresponds_readSpecs hspecs 0).bind fun parameters parameters' hparameters => ?_
      cases hparameters with
      | error err => exact .ok (.error err)
      | ok hparameters => exact .ok (.ok ⟨rfl, rfl, rfl, rfl, hparameters⟩)
  cases h.matches with
  | same =>
    cases value with
    | record fields => exact hrecord fun name => rel_refl _
    | _ => exact .ok (.error _)
  | list => exact .ok (.error _)
  | record hfields => exact hrecord hfields

open Json

/-- **The canonical text of a document is canonical.** Sorting brings the members of every object, at
every depth, in strictly increasing order of the bytes of their names; it changes nothing but the order
of members, where names are distinct as in a map, and nothing at all in a sorted value. JSON values
that differ only in the order of members of different names have the same text then, and so have the
values that a configuration is read from. Such values describe configurations with the same document,
from which the same script is made, or have the same error. -/
theorem canonical_document {json json' : Json} (hjson : Reordered json json')
    {value value' : Value} (hvalue : Rearranged value value') (registry : Registry) :
    (json.sorted.InOrder ∧ (json.Distinct → Reordered json json.sorted) ∧
        json.sorted.sorted = json.sorted ∧ json.sorted.compact = json'.sorted.compact) ∧
      canonicalText value = canonicalText value' ∧
      Corresponds (Corresponds fun configuration configuration' =>
          configuration.document = configuration'.document ∧
            compile configuration registry = compile configuration' registry)
        (ofValue value) (ofValue value') := by
  refine ⟨⟨inOrder_sorted json, reordered_sorted, sorted_sorted json,
    congrArg compact hjson.sorted_eq⟩, hvalue.canonicalText_eq, ?_⟩
  refine (corresponds_ofValue hvalue).imp fun _ _ h => h.imp fun _ _ h => ?_
  exact ⟨h.document, h.compile_eq registry⟩

/-- A document in one order of its members. -/
def listed : Value :=
  .record [("zeta", .bool true), ("alpha", .record [("y", .null), ("b", .list [.text "m"])])]

/-- The same document in another order of its members. -/
def relisted : Value :=
  .record [("alpha", .record [("b", .list [.text "m"]), ("y", .null)]), ("zeta", .bool true)]

/-- The members of a document in another order: the text of the document is the same. -/
theorem canonical_document_of_relisted :
    Reordered (.object [("b", .null), ("a", .null)])
        (sorted (.object [("b", .null), ("a", .null)])) ∧
      canonicalText listed = some "\x7b\"alpha\":\x7b\"b\":[\"m\"],\"y\":null\x7d,\"zeta\":true\x7d" ∧
      canonicalText relisted = canonicalText listed ∧
      Corresponds (Corresponds fun configuration configuration' =>
          configuration.document = configuration'.document ∧
            compile configuration {} = compile configuration' {})
        (ofValue (.record [("document", listed)])) (ofValue (.record [("document", relisted)])) := by
  have hvalue : Rearranged listed relisted :=
    (Rearranged.field [("zeta", .bool true)] "alpha" [] (.swap [] [] (by decide))).trans
      (.swap [] [] (by decide))
  have hjson : Reordered (.object [("b", .null), ("a", .null)])
      (.object [("a", .null), ("b", .null)]) :=
    .swap [] [] (by decide)
  have hdistinct : Distinct (.object [("b", .null), ("a", .null)]) :=
    .object (by decide) (by simp [Everywhere.null])
  obtain ⟨⟨-, hsorted, -, -⟩, htext, -⟩ := canonical_document hjson hvalue {}
  obtain ⟨-, -, hsame⟩ := canonical_document hjson (.field [] "document" [] hvalue) {}
  exact ⟨hsorted hdistinct, by decide +kernel, htext.symm, hsame⟩

end Configuration
end Rulebook
