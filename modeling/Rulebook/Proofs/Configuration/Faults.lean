import Rulebook.Proofs.Configuration.Sections
import Rulebook.Proofs.Engine.OnHost
import Rulebook.Proofs.Value.Paths

/-!
# What breaks off the reading of a configuration

Every lookup in a value that has neither names nor items is a fault. The readers of configurations
and rules look at the kind of a value first, the reader of a declaration does not: an entry of the
list of declarations that has no members breaks off the reading, unless something before it is wrong
and is reported instead. `configuration_broken_off_iff` says that this is all that can happen.
-/

namespace Rulebook

theorem bind_eq_error_iff {ε α β : Type} {first : Except ε α} {next : α → Except ε β} {err : ε} :
    first >>= next = .error err ↔
      first = .error err ∨ ∃ a, first = .ok a ∧ next a = .error err := by
  cases first with
  | error found =>
    refine ⟨fun h => .inl (congrArg Except.error (Except.error.inj h)), ?_⟩
    rintro (⟨⟨⟩⟩ | ⟨a, ⟨⟩, -⟩)
    rfl
  | ok a =>
    refine ⟨fun h => .inr ⟨a, rfl, h⟩, ?_⟩
    rintro (⟨⟨⟩⟩ | ⟨_, ⟨⟩, h⟩)
    exact h

/-! ### Declarations -/

/-- The declaration that a value describes is read in full from a value with members. -/
theorem Parameter.Spec.ofValue_eq_error_iff {value : Value} {fault : Fault} :
    ofValue value = .error fault ↔ fault = .noMembers ∧ value.hasMembers = false := by
  have hfault : (Fault.noMembers = fault) ↔ fault = .noMembers := eq_comm
  cases value <;> simp [ofValue, Value.member, Value.hasMembers, bind, Except.bind, pure,
    Except.pure, hfault]

namespace Configuration

/-- A list of values that comes to one without members, while those before it are declarations. -/
def ComesToBare (items : List Value) : Prop :=
  ∃ before bare after, items = before ++ bare :: after ∧
    (∀ item ∈ before, ∃ spec, Parameter.Spec.ofValue item = .ok (.ok spec)) ∧
    bare.hasMembers = false

theorem not_comesToBare_nil : ¬ComesToBare [] := by
  rintro ⟨before, bare, after, h, -⟩
  cases before <;> cases h

theorem comesToBare_cons_iff {item : Value} {rest : List Value} :
    ComesToBare (item :: rest) ↔ item.hasMembers = false ∨
      (∃ spec, Parameter.Spec.ofValue item = .ok (.ok spec)) ∧ ComesToBare rest := by
  constructor
  · rintro ⟨before, bare, after, h, hbefore, hbare⟩
    cases before with
    | nil =>
      cases h
      exact .inl hbare
    | cons first before =>
      cases h
      obtain ⟨hfirst, hbefore⟩ := List.forall_mem_cons.1 hbefore
      exact .inr ⟨hfirst, before, bare, after, rfl, hbefore, hbare⟩
  · rintro (hbare | ⟨hitem, before, bare, after, rfl, hbefore, hbare⟩)
    · exact ⟨[], item, rest, rfl, List.forall_mem_nil _, hbare⟩
    · exact ⟨item :: before, bare, after, rfl, List.forall_mem_cons.2 ⟨hitem, hbefore⟩, hbare⟩

theorem readSpecs_eq_error_iff {index : Nat} {items : List Value} {fault : Fault} :
    readSpecs index items = .error fault ↔ fault = .noMembers ∧ ComesToBare items := by
  induction items generalizing index with
  | nil =>
    constructor
    · intro h
      cases h
    · intro h
      exact absurd h.2 not_comesToBare_nil
  | cons item rest ih =>
    rw [readSpecs, bind_eq_error_iff, Parameter.Spec.ofValue_eq_error_iff, comesToBare_cons_iff,
      and_or_left]
    refine or_congr_right ⟨?_, ?_⟩
    · rintro ⟨result, hitem, h⟩
      cases result with
      | error reason => cases h
      | ok spec =>
        obtain hrest | ⟨specs, -, h⟩ := bind_eq_error_iff.1 h
        · exact ⟨(ih.1 hrest).1, ⟨spec, hitem⟩, (ih.1 hrest).2⟩
        · cases h
    · rintro ⟨hfault, ⟨spec, hitem⟩, hrest⟩
      exact ⟨.ok spec, hitem, bind_eq_error_iff.2 (.inl (ih.2 ⟨hfault, hrest⟩))⟩

/-! ### Configurations -/

/-- The sections of a configuration are in order, but for the declarations. -/
structure InOrder (fields : Fields Value) : Prop where
  document : ∃ text, documentOf fields = .ok text
  before : ∃ texts, statements fields "preExecution" = .ok texts
  after : ∃ texts, statements fields "postExecution" = .ok texts
  rules : ∃ items, itemsOf fields "rules" = .ok items ∧
    ∀ item ∈ items, ∃ rule, Rule.ofValue item = .ok rule

theorem readRules_isOk_iff {index : Nat} {items : List Value} :
    (∃ rules, readRules index items = .ok rules) ↔
      ∀ item ∈ items, ∃ rule, Rule.ofValue item = .ok rule := by
  induction items generalizing index with
  | nil => exact ⟨fun _ => List.forall_mem_nil _, fun _ => ⟨[], rfl⟩⟩
  | cons item rest ih =>
    rw [List.forall_mem_cons, readRules, ← @ih (index + 1)]
    constructor
    · rintro ⟨rules, h⟩
      split at h
      · rename_i rule hrule
        obtain ⟨others, hothers, -⟩ := exists_of_map_eq_ok h
        exact ⟨⟨rule, hrule⟩, others, hothers⟩
      · cases h
    · rintro ⟨⟨rule, hrule⟩, others, hothers⟩
      rw [hrule, hothers]
      exact ⟨rule :: others, rfl⟩

/-- The declarations are looked at when everything else has been read. -/
theorem readSections_eq_ok_iff {fields : Fields Value} {specs : List Value} :
    (∃ configuration, readSections fields = .ok (configuration, specs)) ↔
      InOrder fields ∧ itemsOf fields "inputValidation" = .ok specs := by
  constructor
  · rintro ⟨configuration, h⟩
    obtain ⟨document, hdocument, h⟩ := exists_of_bind_eq_ok h
    obtain ⟨before, hbefore, h⟩ := exists_of_bind_eq_ok h
    obtain ⟨after, hafter, h⟩ := exists_of_bind_eq_ok h
    obtain ⟨items, hitems, h⟩ := exists_of_bind_eq_ok h
    obtain ⟨rules, hrules, h⟩ := exists_of_bind_eq_ok h
    obtain ⟨found, hfound, h⟩ := exists_of_bind_eq_ok h
    cases h
    exact ⟨⟨⟨document, hdocument⟩, ⟨before, hbefore⟩, ⟨after, hafter⟩,
      ⟨items, hitems, readRules_isOk_iff.1 ⟨rules, hrules⟩⟩⟩, hfound⟩
  · rintro ⟨⟨⟨document, hdocument⟩, ⟨before, hbefore⟩, ⟨after, hafter⟩, ⟨items, hitems, hall⟩⟩,
      hspecs⟩
    obtain ⟨rules, hrules⟩ := (@readRules_isOk_iff 0 items).2 hall
    refine ⟨{ document, before, rules, after }, ?_⟩
    rw [readSections, hdocument, hbefore, hafter, hitems, hspecs]
    show readRules 0 items >>= _ = _
    rw [hrules]
    rfl

/-- A value whose reading as a configuration comes to a declaration without members. -/
def BreaksOff (value : Value) : Prop :=
  ∃ fields specs, value = .record fields ∧ InOrder fields ∧
    itemsOf fields "inputValidation" = .ok specs ∧ ComesToBare specs

theorem ofValue_eq_error_iff {value : Value} {fault : Fault} :
    ofValue value = .error fault ↔ fault = .noMembers ∧ BreaksOff value := by
  cases value with
  | record fields =>
    rw [ofValue]
    constructor
    · intro h
      cases hread : readSections fields with
      | error reason =>
        rw [hread] at h
        cases h
      | ok sections =>
        obtain ⟨configuration, specs⟩ := sections
        rw [hread] at h
        obtain ⟨horder, hspecs⟩ := readSections_eq_ok_iff.1 ⟨configuration, hread⟩
        obtain hbare | ⟨result, -, h⟩ := bind_eq_error_iff.1 h
        · obtain ⟨hfault, hbare⟩ := readSpecs_eq_error_iff.1 hbare
          exact ⟨hfault, fields, specs, rfl, horder, hspecs, hbare⟩
        · cases result <;> cases h
    · rintro ⟨hfault, _, specs, hfields, horder, hspecs, hbare⟩
      cases hfields
      obtain ⟨configuration, hread⟩ := readSections_eq_ok_iff.2 ⟨horder, hspecs⟩
      rw [hread]
      exact bind_eq_error_iff.2 (.inl (readSpecs_eq_error_iff.2 ⟨hfault, hbare⟩))
  | _ =>
    constructor
    · intro h
      cases h
    · rintro ⟨-, fields, specs, hfields, -⟩
      cases hfields

end Configuration

/-! ### Texts and engines -/

theorem Source.configuration_eq_error_iff {source : Source} {text : String} {fault : Fault} :
    source.configuration text = .error fault ↔ fault = .noMembers ∧
      ∃ value, source.value text = .ok value ∧ Configuration.BreaksOff value := by
  rw [Source.configuration]
  cases hvalue : source.value text with
  | error err =>
    constructor
    · intro h
      cases h
    · rintro ⟨-, value, hdenotes, -⟩
      cases hdenotes
  | ok value =>
    constructor
    · intro h
      obtain hread | ⟨result, -, h⟩ := bind_eq_error_iff.1 h
      · obtain ⟨hfault, hbreaks⟩ := Configuration.ofValue_eq_error_iff.1 hread
        exact ⟨hfault, value, rfl, hbreaks⟩
      · -- What is left to do is the document section, which is read without a fault.
        cases result with
        | error reason => cases h
        | ok configuration => cases hfound : source.documentText text with
          | error err =>
            rw [hfound] at h
            cases h
          | ok found =>
            rw [hfound] at h
            cases found <;> cases h
    · rintro ⟨hfault, _, ⟨⟩, hbreaks⟩
      exact bind_eq_error_iff.2 (.inl (Configuration.ofValue_eq_error_iff.2 ⟨hfault, hbreaks⟩))

/-- Reading a value as a configuration is broken off exactly by an entry of its list of declarations
that is neither a record nor a list, if nothing before that entry is wrong. Whatever its format is, so
is a text that denotes such a value, and so is the engine that is given such a text. An engine is
configured by the configuration that it has read and stays as it is in all other cases. -/
theorem configuration_broken_off_iff (value : Value) (source : Source) (text : String) (host : Host)
    (files : Fields String) (engine : Engine) :
    (∀ fault, Configuration.ofValue value = .error fault ↔
      fault = .noMembers ∧ Configuration.BreaksOff value) ∧
    (∀ fault, source.configuration text = .error fault ↔
      fault = .noMembers ∧
        ∃ value, source.value text = .ok value ∧ Configuration.BreaksOff value) ∧
    match (Engine.configure text).onHost host files engine with
    | (.error fault, after) => fault = .noMembers ∧ after = engine ∧
        ∃ value, engine.source.value text = .ok value ∧ Configuration.BreaksOff value
    | (.ok (.error reason), after) => after = engine ∧
        ∃ cause, reason = .source cause ∧ engine.source.configuration text = .ok (.error cause)
    | (.ok (.ok ()), after) => ∃ configuration,
        engine.source.configuration text = .ok (.ok configuration) ∧
        after = { engine with
          loaded := some ⟨configuration, configuration.document⟩, compiled := none } := by
  refine ⟨fun fault => Configuration.ofValue_eq_error_iff,
    fun fault => Source.configuration_eq_error_iff, ?_⟩
  rw [Engine.onHost_configure]
  cases hread : engine.source.configuration text with
  | error fault =>
    obtain ⟨hfault, hbreaks⟩ := Source.configuration_eq_error_iff.1 hread
    exact ⟨hfault, rfl, hbreaks⟩
  | ok result => cases result with
    | error cause => exact ⟨rfl, cause, rfl, rfl⟩
    | ok configuration => exact ⟨configuration, rfl, rfl⟩

example : Configuration.ofValue (.record [("inputValidation", .list [.text "age"])]) =
    .error .noMembers := rfl

end Rulebook
