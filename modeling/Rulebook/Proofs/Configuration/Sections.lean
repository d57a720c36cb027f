import Mathlib.Data.List.Forall2
import Rulebook.Configuration.Source

/-!
# What a configuration was read from

A text that is read as a configuration denotes a record, and every part of the configuration comes
from a section of that record: `Sections` says which one, item by item, and `Parameter.Spec.Parts` what
the parts of a declaration come from. The document comes from the text itself if the source format
can tell: `Source.exists_of_configuration`.
-/

namespace Rulebook

/-- The first of two steps that succeed one after the other succeeds. -/
theorem exists_of_bind_eq_ok {ε α β : Type} {first : Except ε α} {next : α → Except ε β} {b : β}
    (h : first >>= next = .ok b) : ∃ a, first = .ok a ∧ next a = .ok b := by
  cases first with
  | error err => cases h
  | ok a => exact ⟨a, rfl, h⟩

theorem exists_of_map_eq_ok {ε α β : Type} {result : Except ε α} {f : α → β} {b : β}
    (h : result.map f = .ok b) : ∃ a, result = .ok a ∧ f a = b := by
  cases result with
  | error err => cases h
  | ok a => exact ⟨a, rfl, Except.ok.inj h⟩

theorem exists_mem_of_forall₂ {α β : Type} {R : α → β → Prop} {as : List α} {bs : List β}
    (h : List.Forall₂ R as bs) {b : β} (hb : b ∈ bs) : ∃ a ∈ as, R a b := by
  induction h with
  | nil => cases hb
  | cons hfirst hrest ih =>
    rcases List.mem_cons.1 hb with rfl | hb
    · exact ⟨_, List.mem_cons_self, hfirst⟩
    · obtain ⟨a, ha, hab⟩ := ih hb
      exact ⟨a, List.mem_cons_of_mem _ ha, hab⟩

/-! ### Declarations -/

namespace Parameter.Spec

/-- What the parts of a declaration are read from. -/
structure Parts (member : String → Option Value) (spec : Spec) : Prop where
  name : readName (member "name") = .ok spec.name
  kind : readKind (member "type") = .ok spec.kind
  required : readRequired (member "required") = .ok spec.required
  min : limit? "min" (member "min") = .ok spec.min
  max : limit? "max" (member "max") = .ok spec.max
  pattern : readPattern (member "pattern") = .ok spec.pattern
  allowed : readAllowed (member "allowed") = .ok spec.allowed

theorem parts_of_ofMembers {member : String → Option Value} {spec : Spec}
    (h : ofMembers member = .ok spec) : Parts member spec := by
  obtain ⟨name, hname, h⟩ := exists_of_bind_eq_ok h
  obtain ⟨kind, hkind, h⟩ := exists_of_bind_eq_ok h
  obtain ⟨required, hrequired, h⟩ := exists_of_bind_eq_ok h
  obtain ⟨min, hmin, h⟩ := exists_of_bind_eq_ok h
  obtain ⟨max, hmax, h⟩ := exists_of_bind_eq_ok h
  obtain ⟨minLength, -, h⟩ := exists_of_bind_eq_ok h
  obtain ⟨maxLength, -, h⟩ := exists_of_bind_eq_ok h
  obtain ⟨pattern, hpattern, h⟩ := exists_of_bind_eq_ok h
  obtain ⟨allowed, hallowed, h⟩ := exists_of_bind_eq_ok h
  cases h
  exact ⟨hname, hkind, hrequired, hmin, hmax, hpattern, hallowed⟩

/-- A declaration is read from a record. A list does not do: its first item would have to be a name and
a truth value. -/
theorem exists_of_ofValue {value : Value} {spec : Spec} (h : ofValue value = .ok (.ok spec)) :
    ∃ fields : Fields Value, value = .record fields ∧ Parts fields.get? spec := by
  obtain ⟨found, hfound, h⟩ := exists_of_bind_eq_ok h
  have hparts := parts_of_ofMembers (Except.ok.inj h)
  cases value with
  | record fields => exact ⟨fields, rfl, hparts⟩
  | list values =>
    have hname := hparts.name
    have hrequired := hparts.required
    cases values with
    | nil => cases hname
    | cons value values => cases value <;> first | cases hname; done | cases hrequired
  | _ => cases hfound

end Parameter.Spec

/-! ### Configurations -/

namespace Configuration

theorem eq_map_of_readStatements {field : String} {index : Nat} {items : List Value}
    {texts : List String} (h : readStatements field index items = .ok texts) :
    items = texts.map .text := by
  induction items generalizing index texts with
  | nil =>
    cases h
    rfl
  | cons item rest ih =>
    cases item with
    | text statement =>
      obtain ⟨others, hothers, rfl⟩ := exists_of_map_eq_ok h
      rw [List.map_cons, ih hothers]
    | _ => cases h

/-- Every rule is read from its own item. -/
theorem forall₂_of_readRules {index : Nat} {items : List Value} {rules : List Rule}
    (h : readRules index items = .ok rules) :
    List.Forall₂ (fun item rule => Rule.ofValue item = .ok rule) items rules := by
  induction items generalizing index rules with
  | nil =>
    cases h
    exact .nil
  | cons item rest ih =>
    rw [readRules] at h
    split at h
    · rename_i rule hrule
      obtain ⟨others, hothers, rfl⟩ := exists_of_map_eq_ok h
      exact .cons hrule (ih hothers)
    · cases h

/-- Every declaration is read from its own item. -/
theorem forall₂_of_readSpecs {index : Nat} {items : List Value} {specs : List Parameter.Spec}
    (h : readSpecs index items = .ok (.ok specs)) :
    List.Forall₂ (fun item spec => Parameter.Spec.ofValue item = .ok (.ok spec)) items specs := by
  induction items generalizing index specs with
  | nil =>
    cases h
    exact .nil
  | cons item rest ih =>
    rw [readSpecs] at h
    obtain ⟨result, hitem, h⟩ := exists_of_bind_eq_ok h
    cases result with
    | error reason => cases h
    | ok spec =>
      obtain ⟨result, hrest, h⟩ := exists_of_bind_eq_ok h
      obtain ⟨others, rfl, rfl⟩ := exists_of_map_eq_ok (Except.ok.inj h)
      exact .cons hitem (ih hrest)

/-- What the parts of a configuration are read from. -/
structure Sections (fields : Fields Value) (configuration : Configuration) : Prop where
  document : documentOf fields = .ok configuration.document
  before : statements fields "preExecution" = .ok configuration.before
  after : statements fields "postExecution" = .ok configuration.after
  rules : ∃ items, itemsOf fields "rules" = .ok items ∧
    List.Forall₂ (fun item rule => Rule.ofValue item = .ok rule) items configuration.rules
  parameters : ∃ items, itemsOf fields "inputValidation" = .ok items ∧
    List.Forall₂ (fun item spec => Parameter.Spec.ofValue item = .ok (.ok spec)) items
      configuration.parameters

/-- A value that describes a configuration is a record with its sections. -/
theorem exists_of_ofValue {value : Value} {configuration : Configuration}
    (h : ofValue value = .ok (.ok configuration)) :
    ∃ fields, value = .record fields ∧ Sections fields configuration := by
  cases value with
  | record fields =>
    refine ⟨fields, rfl, ?_⟩
    rw [ofValue] at h
    cases hread : readSections fields with
    | error err =>
      rw [hread] at h
      cases h
    | ok sections =>
      obtain ⟨base, items⟩ := sections
      rw [hread] at h
      obtain ⟨result, hspecs, h⟩ := exists_of_bind_eq_ok h
      cases result with
      | error err => cases h
      | ok parameters =>
        cases h
        obtain ⟨document, hdocument, hread⟩ := exists_of_bind_eq_ok hread
        obtain ⟨before, hbefore, hread⟩ := exists_of_bind_eq_ok hread
        obtain ⟨after, hafter, hread⟩ := exists_of_bind_eq_ok hread
        obtain ⟨ruleItems, hruleItems, hread⟩ := exists_of_bind_eq_ok hread
        obtain ⟨rules, hrules, hread⟩ := exists_of_bind_eq_ok hread
        obtain ⟨specItems, hspecItems, hread⟩ := exists_of_bind_eq_ok hread
        cases hread
        exact ⟨hdocument, hbefore, hafter, ⟨ruleItems, hruleItems, forall₂_of_readRules hrules⟩,
          ⟨_, hspecItems, forall₂_of_readSpecs hspecs⟩⟩
  | _ => cases h

end Configuration

/-- A configuration text denotes a value with the sections of the configuration. The text of the
document, if there is one, takes the place of the document of the value. -/
theorem Source.exists_of_configuration {source : Source} {text : String}
    {configuration : Configuration} (h : source.configuration text = .ok (.ok configuration)) :
    ∃ fields base found, source.value text = .ok (.record fields) ∧
      Configuration.Sections fields base ∧ source.documentText text = .ok found ∧
      configuration = { base with document := found.getD base.document } := by
  rw [Source.configuration] at h
  cases hvalue : source.value text with
  | error err =>
    rw [hvalue] at h
    cases h
  | ok value =>
    rw [hvalue] at h
    obtain ⟨result, hresult, hdocument⟩ := exists_of_bind_eq_ok h
    cases result with
    | error reason => cases hdocument
    | ok base =>
      obtain ⟨fields, rfl, hsections⟩ := Configuration.exists_of_ofValue hresult
      refine ⟨fields, base, ?_⟩
      cases hfound : source.documentText text with
      | error err =>
        rw [hfound] at hdocument
        cases hdocument
      | ok found =>
        rw [hfound] at hdocument
        refine ⟨found, rfl, hsections, rfl, ?_⟩
        cases found <;> exact (Except.ok.inj (Except.ok.inj hdocument)).symm

end Rulebook
