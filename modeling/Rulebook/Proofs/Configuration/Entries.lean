import Mathlib.Data.Set.List
import Rulebook.Proofs.Configuration.Faults

/-!
# The entries of a configuration

A configuration has the entries of the record that describes it, all of them and in their order:
`Configuration.DescribedBy`. Of any other value the first thing that is wrong is reported, where the
sections come in a fixed order, `Section.all`, and the entries of a section in theirs. The main
statement is `configuration_described_or_reported`.
-/

namespace Rulebook

theorem bind_eq_ok_iff {ε α β : Type} {first : Except ε α} {next : α → Except ε β} {b : β} :
    first >>= next = .ok b ↔ ∃ a, first = .ok a ∧ next a = .ok b := by
  refine ⟨exists_of_bind_eq_ok, ?_⟩
  rintro ⟨a, hfirst, hnext⟩
  rw [hfirst]
  exact hnext

theorem map_eq_error_iff {ε α β : Type} {result : Except ε α} {f : α → β} {err : ε} :
    result.map f = .error err ↔ result = .error err := by
  cases result <;> simp [Except.map]

/-- The second of two steps is taken up only if the first one succeeds. -/
theorem bind_eq_error_iff_of {ε α β : Type} {first : Except ε α} {next : α → Except ε β} {err : ε}
    {good bad after : Prop} (hgood : good ↔ ∃ a, first = .ok a) (hbad : first = .error err ↔ bad)
    (hnext : ∀ a, next a = .error err ↔ after) :
    first >>= next = .error err ↔ bad ∨ good ∧ after := by
  simp only [bind_eq_error_iff, hbad, hnext, exists_and_right, ← hgood]

/-- Whether a list comes to a member that is bad, behind members that are good. What is said about the
bad one depends on its index. -/
def ComesTo {α ε : Type} (good : α → Prop) (bad : Nat → α → ε → Prop) (items : List α) (err : ε) :
    Prop :=
  ∃ before item after, items = before ++ item :: after ∧ (∀ a ∈ before, good a) ∧
    bad before.length item err

section

variable {α ε : Type} {good : α → Prop} {bad : Nat → α → ε → Prop} {err : ε}

theorem not_comesTo_nil : ¬ComesTo good bad [] err := by
  rintro ⟨before, item, after, h, -⟩
  cases before <;> cases h

theorem comesTo_cons_iff {item : α} {rest : List α} :
    ComesTo good bad (item :: rest) err ↔
      bad 0 item err ∨ good item ∧ ComesTo good (fun index => bad (index + 1)) rest err := by
  constructor
  · rintro ⟨before, other, after, h, hbefore, hbad⟩
    cases before with
    | nil =>
      cases h
      exact .inl hbad
    | cons first before =>
      cases h
      obtain ⟨hfirst, hbefore⟩ := List.forall_mem_cons.1 hbefore
      exact .inr ⟨hfirst, before, other, after, rfl, hbefore, hbad⟩
  · rintro (hbad | ⟨hgood, before, other, after, rfl, hbefore, hbad⟩)
    · exact ⟨[], item, rest, rfl, List.forall_mem_nil _, hbad⟩
    · exact ⟨item :: before, other, after, rfl, List.forall_mem_cons.2 ⟨hgood, hbefore⟩, hbad⟩

/-- The indices of a list that is the rest of another one go on where that one left off. -/
theorem comesTo_cons_from_iff {index : Nat} {item : α} {rest : List α} :
    ComesTo good (fun place => bad (index + place)) (item :: rest) err ↔
      bad index item err ∨
        good item ∧ ComesTo good (fun place => bad (index + 1 + place)) rest err := by
  have hplaces : (fun place => bad (index + (place + 1))) = fun place => bad (index + 1 + place) :=
    funext fun place => congrArg bad (Nat.add_right_comm index place 1)
  rw [comesTo_cons_iff, hplaces, Nat.add_zero]

end

/-- A list can be matched item by item if and only if every item can be matched. -/
theorem exists_forall₂_iff {α β : Type} {R : α → β → Prop} {as : List α} :
    (∃ bs, List.Forall₂ R as bs) ↔ ∀ a ∈ as, ∃ b, R a b := by
  induction as with
  | nil => exact ⟨fun _ => List.forall_mem_nil _, fun _ => ⟨[], .nil⟩⟩
  | cons a rest ih =>
    rw [List.forall_mem_cons, ← ih]
    constructor
    · rintro ⟨_, _ | ⟨hfirst, hrest⟩⟩
      exact ⟨⟨_, hfirst⟩, _, hrest⟩
    · rintro ⟨⟨b, hfirst⟩, bs, hrest⟩
      exact ⟨b :: bs, .cons hfirst hrest⟩

/-! ### Rules -/

theorem textsOf?_eq_some_iff {values : List Value} {texts : List String} :
    textsOf? values = some texts ↔ values = texts.map .text := by
  induction values generalizing texts with
  | nil => cases texts <;> simp [textsOf?]
  | cons value rest ih =>
    cases value with
    | text s =>
      rw [textsOf?, Option.map_eq_some_iff]
      constructor
      · rintro ⟨others, hothers, rfl⟩
        rw [List.map_cons, ih.1 hothers]
      · intro h
        cases texts with
        | nil => cases h
        | cons first others =>
          obtain ⟨hfirst, hrest⟩ := List.cons.inj h
          cases hfirst
          exact ⟨others, ih.2 hrest, rfl⟩
    | _ => cases texts <;> simp [textsOf?]

/-- The text of a truth value. -/
def textOfBool (b : Bool) : String := if b then "true" else "false"

/-- Whether a rule is what a record describes. -/
structure Rule.DescribedBy (fields : Fields Value) (rule : Rule) : Prop where
  condition : fields.get? "condition" = some (.text rule.condition) ∨
    ∃ b, fields.get? "condition" = some (.bool b) ∧ rule.condition = textOfBool b
  name : fields.get? "name" = rule.name.map .text
  /-- A text is a body of one statement. -/
  body : (fields.get? "body" = none ∧ rule.body = []) ∨
    (∃ statement, fields.get? "body" = some (.text statement) ∧ rule.body = [statement]) ∨
    fields.get? "body" = some (.list (rule.body.map .text))
  actions : (fields.get? "executionActions" = none ∧ rule.actions = []) ∨
    fields.get? "executionActions" = some (.list (rule.actions.map .text))

namespace Rule

variable {found : Option Value}

theorem readCondition_eq_ok_iff {condition : String} : readCondition found = .ok condition ↔
    found = some (.text condition) ∨ ∃ b, found = some (.bool b) ∧ condition = textOfBool b := by
  cases found with
  | none => simp [readCondition]
  | some value => cases value <;> simp [readCondition, textOfBool, eq_comm]

theorem readName_eq_ok_iff {name : Option String} :
    readName found = .ok name ↔ found = name.map .text := by
  cases found with
  | none => cases name <;> simp [readName]
  | some value => cases value <;> cases name <;> simp [readName]

theorem readBody_eq_ok_iff {body : List String} : readBody found = .ok body ↔
    (found = none ∧ body = []) ∨ (∃ statement, found = some (.text statement) ∧ body = [statement]) ∨
      found = some (.list (body.map .text)) := by
  cases found with
  | none => simp [readBody, eq_comm]
  | some value =>
    cases value with
    | list statements =>
      have htexts := @textsOf?_eq_some_iff statements body
      cases hread : textsOf? statements with
      | none => simp [readBody, hread, ← htexts]
      | some texts => simp [readBody, hread, ← htexts]
    | _ => simp [readBody, eq_comm]

theorem readActions_eq_ok_iff {actions : List String} : readActions found = .ok actions ↔
    (found = none ∧ actions = []) ∨ found = some (.list (actions.map .text)) := by
  cases found with
  | none => simp [readActions, eq_comm]
  | some value =>
    cases value with
    | list names =>
      have htexts := @textsOf?_eq_some_iff names actions
      cases hread : textsOf? names with
      | none => simp [readActions, hread, ← htexts]
      | some texts => simp [readActions, hread, ← htexts]
    | _ => simp [readActions]

theorem ofValue_eq_ok_iff {value : Value} {rule : Rule} :
    ofValue value = .ok rule ↔ ∃ fields, value = .record fields ∧ rule.DescribedBy fields := by
  cases value with
  | record fields =>
    have hparts : ofValue (.record fields) = .ok rule ↔ rule.DescribedBy fields := by
      simp only [ofValue, bind_eq_ok_iff, readCondition_eq_ok_iff, readName_eq_ok_iff,
        readBody_eq_ok_iff, readActions_eq_ok_iff]
      constructor
      · rintro ⟨condition, hcondition, name, hname, body, hbody, actions, hactions, h⟩
        cases h
        exact ⟨hcondition, hname, hbody, hactions⟩
      · intro h
        exact ⟨_, h.condition, _, h.name, _, h.body, _, h.actions, rfl⟩
    simp [hparts]
  | _ => simp [ofValue]

end Rule

/-! ### Declarations -/

/-- Whether a limit is what stands in its place: a number, or nothing. -/
def Parameter.IsLimit (found : Option Value) (limit : Option Float) : Prop :=
  (found = none ∧ limit = none) ∨ ∃ n, found = some (.number n) ∧ limit = some n.toFloat

/-- Whether a declaration is what a record describes. -/
structure Parameter.Spec.DescribedBy (fields : Fields Value) (spec : Spec) : Prop where
  name : fields.get? "name" = some (.text spec.name)
  kind : (fields.get? "type" = none ∧ spec.kind = .any) ∨
    ∃ word, fields.get? "type" = some (.text word) ∧ Kind.ofName? word = some spec.kind
  required : (fields.get? "required" = none ∧ spec.required = false) ∨
    fields.get? "required" = some (.bool spec.required)
  min : IsLimit (fields.get? "min") spec.min
  max : IsLimit (fields.get? "max") spec.max
  minLength : ∃ limit, IsLimit (fields.get? "minLength") limit ∧ spec.minLength = limit.map toCount
  maxLength : ∃ limit, IsLimit (fields.get? "maxLength") limit ∧ spec.maxLength = limit.map toCount
  pattern : (fields.get? "pattern" = none ∧ spec.pattern = none) ∨
    ∃ pattern, fields.get? "pattern" = some (.text pattern) ∧ (Pattern.read? pattern).isSome = true ∧
      spec.pattern = some pattern
  allowed : (fields.get? "allowed" = none ∧ spec.allowed = []) ∨
    fields.get? "allowed" = some (.list spec.allowed)

namespace Parameter.Spec

variable {found : Option Value}

theorem readName_eq_ok_iff {name : String} :
    readName found = .ok name ↔ found = some (.text name) := by
  cases found with
  | none => simp [readName]
  | some value => cases value <;> simp [readName]

theorem readKind_eq_ok_iff {kind : Kind} : readKind found = .ok kind ↔
    (found = none ∧ kind = .any) ∨
      ∃ word, found = some (.text word) ∧ Kind.ofName? word = some kind := by
  cases found with
  | none => simp [readKind, eq_comm]
  | some value =>
    cases value with
    | text word => cases hword : Kind.ofName? word <;> simp [readKind, hword]
    | _ => simp [readKind]

theorem readRequired_eq_ok_iff {required : Bool} : readRequired found = .ok required ↔
    (found = none ∧ required = false) ∨ found = some (.bool required) := by
  cases found with
  | none => simp [readRequired, eq_comm]
  | some value => cases value <;> simp [readRequired]

theorem limit?_eq_ok_iff {field : String} {limit : Option Float} :
    limit? field found = .ok limit ↔ IsLimit found limit := by
  cases found with
  | none => simp [limit?, IsLimit, eq_comm]
  | some value => cases value <;> simp [limit?, IsLimit, eq_comm]

theorem readPattern_eq_ok_iff {pattern : Option String} : readPattern found = .ok pattern ↔
    (found = none ∧ pattern = none) ∨ ∃ text, found = some (.text text) ∧
      (Pattern.read? text).isSome = true ∧ pattern = some text := by
  have hcomm {a b : Option String} : a = b ↔ b = a := eq_comm
  cases found with
  | none => simp [readPattern, @hcomm none]
  | some value =>
    cases value with
    | text text =>
      cases hread : (Pattern.read? text).isSome <;> simp [readPattern, hread, @hcomm (some _)]
    | _ => simp [readPattern]

theorem readAllowed_eq_ok_iff {allowed : List Value} : readAllowed found = .ok allowed ↔
    (found = none ∧ allowed = []) ∨ found = some (.list allowed) := by
  cases found with
  | none => simp [readAllowed, eq_comm]
  | some value => cases value <;> simp [readAllowed]

theorem ofMembers_eq_ok_iff {fields : Fields Value} {spec : Spec} :
    ofMembers fields.get? = .ok spec ↔ spec.DescribedBy fields := by
  simp only [ofMembers, bind_eq_ok_iff, readName_eq_ok_iff, readKind_eq_ok_iff,
    readRequired_eq_ok_iff, limit?_eq_ok_iff, readPattern_eq_ok_iff, readAllowed_eq_ok_iff]
  constructor
  · rintro ⟨name, hname, kind, hkind, required, hrequired, min, hmin, max, hmax, minLength,
      hminLength, maxLength, hmaxLength, pattern, hpattern, allowed, hallowed, h⟩
    cases h
    exact ⟨hname, hkind, hrequired, hmin, hmax, ⟨_, hminLength, rfl⟩, ⟨_, hmaxLength, rfl⟩, hpattern,
      hallowed⟩
  · intro h
    obtain ⟨minLength, hminLength, hmin⟩ := h.minLength
    obtain ⟨maxLength, hmaxLength, hmax⟩ := h.maxLength
    refine ⟨_, h.name, _, h.kind, _, h.required, _, h.min, _, h.max, _, hminLength, _, hmaxLength, _,
      h.pattern, _, h.allowed, ?_⟩
    rw [← hmin, ← hmax]
    rfl

/-- A declaration that can be read is described by a record. -/
theorem ofValue_eq_ok_iff {value : Value} {spec : Spec} :
    ofValue value = .ok (.ok spec) ↔ ∃ fields, value = .record fields ∧ spec.DescribedBy fields := by
  have hrecord {fields : Fields Value} :
      ofValue (.record fields) = .ok (.ok spec) ↔ ofMembers fields.get? = .ok spec := by
    show (Except.ok (ofMembers fun name => fields.get? name) : Except Fault _) = _ ↔ _
    rw [Except.ok.injEq]
  constructor
  · intro h
    obtain ⟨fields, rfl, -⟩ := exists_of_ofValue h
    exact ⟨fields, rfl, ofMembers_eq_ok_iff.1 (hrecord.1 h)⟩
  · rintro ⟨fields, rfl, h⟩
    exact hrecord.2 (ofMembers_eq_ok_iff.2 h)

end Parameter.Spec

/-! ### Sections -/

namespace Configuration

/-- Whether a section has certain items. A section that is missing or null has none. -/
def HasItems (fields : Fields Value) (field : String) (items : List Value) : Prop :=
  fields.get? field = some (.list items) ∨
    (items = [] ∧ (fields.get? field = none ∨ fields.get? field = some .null))

/-- Whether a section is there and is no list. -/
def IsNoList (fields : Fields Value) (field : String) : Prop :=
  ∃ value, fields.get? field = some value ∧ value ≠ .null ∧ ∀ items, value ≠ .list items

variable {fields : Fields Value} {field : String} {items : List Value} {err : ConfigurationError}

theorem itemsOf_eq_ok_iff : itemsOf fields field = .ok items ↔ HasItems fields field items := by
  unfold itemsOf HasItems
  cases fields.get? field with
  | none => simp [eq_comm]
  | some value => cases value <;> simp [eq_comm]

theorem itemsOf_eq_error_iff :
    itemsOf fields field = .error err ↔ err = .list field ∧ IsNoList fields field := by
  unfold itemsOf IsNoList
  cases fields.get? field with
  | none => simp
  | some value => cases value <;> simp [eq_comm]

/-- Whether a value is a text. -/
def IsText (value : Value) : Prop := value ∈ Set.range Value.text

/-- Whether a value describes a rule. -/
def IsRule (value : Value) : Prop :=
  ∃ rule : Rule, ∃ fields, value = .record fields ∧ rule.DescribedBy fields

/-- Whether a value describes a declaration. -/
def IsSpec (value : Value) : Prop :=
  ∃ spec : Parameter.Spec, ∃ fields, value = .record fields ∧ spec.DescribedBy fields

/-- What is reported of an entry that is no text. -/
def ReportsStatement (field : String) (index : Nat) (entry : Value) (err : ConfigurationError) : Prop :=
  ¬IsText entry ∧ err = .statement field index

/-- What is reported of an entry that is no rule. -/
def ReportsRule (index : Nat) (entry : Value) (err : ConfigurationError) : Prop :=
  ∃ reason, Rule.ofValue entry = .error reason ∧ err = .rule index reason

/-- What is reported of an entry that is no declaration, if it can be asked for its members. -/
def ReportsSpec (index : Nat) (entry : Value) (err : ConfigurationError) : Prop :=
  ∃ reason, Parameter.Spec.ofValue entry = .ok (.error reason) ∧ err = .parameter index reason

theorem isRule_iff {value : Value} : IsRule value ↔ ∃ rule, Rule.ofValue value = .ok rule := by
  simp only [IsRule, Rule.ofValue_eq_ok_iff]

theorem isSpec_iff {value : Value} :
    IsSpec value ↔ ∃ spec, Parameter.Spec.ofValue value = .ok (.ok spec) := by
  simp only [IsSpec, Parameter.Spec.ofValue_eq_ok_iff]

theorem readStatements_eq_ok_iff {index : Nat} {texts : List String} :
    readStatements field index items = .ok texts ↔ items = texts.map .text := by
  refine ⟨eq_map_of_readStatements, ?_⟩
  rintro rfl
  induction texts generalizing index with
  | nil => rfl
  | cons s rest ih => rw [List.map_cons, readStatements, ih]; rfl

theorem readStatements_eq_error_iff {index : Nat} :
    readStatements field index items = .error err ↔
      ComesTo IsText (fun place => ReportsStatement field (index + place)) items err := by
  induction items generalizing index with
  | nil => simp [readStatements, not_comesTo_nil]
  | cons item rest ih =>
    rw [comesTo_cons_from_iff]
    cases item with
    | text s => simp [readStatements, map_eq_error_iff, ih, ReportsStatement, IsText]
    | _ => simp [readStatements, ReportsStatement, IsText, eq_comm]

theorem readRules_eq_ok_iff {index : Nat} {rules : List Rule} :
    readRules index items = .ok rules ↔
      List.Forall₂ (fun item rule => Rule.ofValue item = .ok rule) items rules := by
  refine ⟨forall₂_of_readRules, fun h => ?_⟩
  induction h generalizing index with
  | nil => rfl
  | cons hitem _ ih =>
    rw [readRules, hitem, ih]
    rfl

theorem readRules_eq_error_iff {index : Nat} :
    readRules index items = .error err ↔
      ComesTo IsRule (fun place => ReportsRule (index + place)) items err := by
  induction items generalizing index with
  | nil => simp [readRules, not_comesTo_nil]
  | cons item rest ih =>
    rw [comesTo_cons_from_iff, readRules, isRule_iff]
    cases hitem : Rule.ofValue item with
    | ok rule => simp [map_eq_error_iff, ih, ReportsRule, hitem]
    | error reason => simp [ReportsRule, hitem, eq_comm]

theorem readSpecs_eq_ok_iff {index : Nat} {specs : List Parameter.Spec} :
    readSpecs index items = .ok (.ok specs) ↔
      List.Forall₂ (fun item spec => Parameter.Spec.ofValue item = .ok (.ok spec)) items specs := by
  refine ⟨forall₂_of_readSpecs, fun h => ?_⟩
  induction h generalizing index with
  | nil => rfl
  | cons hitem _ ih =>
    rw [readSpecs, hitem]
    show readSpecs _ _ >>= _ = _
    rw [ih]
    rfl

theorem readSpecs_eq_ok_error_iff {index : Nat} :
    readSpecs index items = .ok (.error err) ↔
      ComesTo IsSpec (fun place => ReportsSpec (index + place)) items err := by
  induction items generalizing index with
  | nil => simp [readSpecs, not_comesTo_nil]
  | cons item rest ih =>
    rw [comesTo_cons_from_iff, readSpecs, bind_eq_ok_iff, isSpec_iff, ← ih]
    constructor
    · rintro ⟨result, hitem, h⟩
      cases result with
      | ok spec =>
        obtain ⟨others, hothers, h⟩ := bind_eq_ok_iff.1 h
        obtain rfl := map_eq_error_iff.1 (Except.ok.inj h)
        exact .inr ⟨⟨spec, hitem⟩, hothers⟩
      | error reason =>
        cases h
        exact .inl ⟨reason, hitem, rfl⟩
    · rintro (⟨reason, hitem, rfl⟩ | ⟨⟨spec, hitem⟩, hothers⟩)
      · exact ⟨.error reason, hitem, rfl⟩
      · exact ⟨.ok spec, hitem, bind_eq_ok_iff.2 ⟨.error err, hothers, rfl⟩⟩

/-- Whether a text is the document of a record: the canonical text of its document section, or the empty
object if that is missing or null. -/
def HasDocument (fields : Fields Value) (text : String) : Prop :=
  ((fields.get? "document" = none ∨ fields.get? "document" = some .null) ∧ text = "\x7b\x7d") ∨
    ∃ value, fields.get? "document" = some value ∧ value ≠ .null ∧ canonicalText value = some text

theorem documentOf_eq_ok_iff {text : String} :
    documentOf fields = .ok text ↔ HasDocument fields text := by
  have hcomm : "\x7b\x7d" = text ↔ text = "\x7b\x7d" := eq_comm
  unfold documentOf HasDocument
  cases fields.get? "document" with
  | none => simp [hcomm]
  | some value =>
    by_cases hnull : value = .null
    · subst hnull
      simp [hcomm]
    · cases htext : canonicalText value <;> simp [hnull, htext]

theorem documentOf_eq_error_iff : documentOf fields = .error err ↔
    err = .document ∧ ∃ value, fields.get? "document" = some value ∧ canonicalText value = none := by
  have hnull : canonicalText .null ≠ none := by simp [canonicalText, Value.toJson]
  unfold documentOf
  cases fields.get? "document" with
  | none => simp
  | some value =>
    by_cases hvalue : value = .null
    · subst hvalue
      simp [hnull]
    · cases htext : canonicalText value <;> simp [htext, eq_comm]

/-- The sections of a configuration. -/
inductive Section where
  | document
  | before
  | after
  | rules
  | parameters
  deriving Repr, DecidableEq

namespace Section

/-- The sections in the order in which they are read. -/
def all : List Section := [document, before, after, rules, parameters]

/-- Whether a section is missing, null or a list of entries of a certain form. -/
def Lists (form : Value → Prop) (fields : Fields Value) (field : String) : Prop :=
  ∃ items, HasItems fields field items ∧ ∀ item ∈ items, form item

/-- What is reported of a section that is no list of entries of a certain form: that it is no list, or
what is wrong with the first entry that has not that form. -/
def Reports (form : Value → Prop) (bad : Nat → Value → ConfigurationError → Prop)
    (fields : Fields Value) (field : String) (err : ConfigurationError) : Prop :=
  (err = .list field ∧ IsNoList fields field) ∨
    ∃ items, HasItems fields field items ∧ ComesTo form bad items err

/-- Whether a section is as it has to be. -/
def IsGood (fields : Fields Value) : Section → Prop
  | document => ∃ text, HasDocument fields text
  | before => Lists IsText fields "preExecution"
  | after => Lists IsText fields "postExecution"
  | rules => Lists IsRule fields "rules"
  | parameters => Lists IsSpec fields "inputValidation"

/-- What is reported of a section. -/
def IsBad (fields : Fields Value) : Section → ConfigurationError → Prop
  | document, err =>
    err = .document ∧ ∃ value, fields.get? "document" = some value ∧ canonicalText value = none
  | before, err => Reports IsText (ReportsStatement "preExecution") fields "preExecution" err
  | after, err => Reports IsText (ReportsStatement "postExecution") fields "postExecution" err
  | rules, err => Reports IsRule ReportsRule fields "rules" err
  | parameters, err => Reports IsSpec ReportsSpec fields "inputValidation" err

theorem lists_isText_iff :
    Lists IsText fields field ↔ ∃ texts, statements fields field = .ok texts := by
  simp only [statements, bind_eq_ok_iff, itemsOf_eq_ok_iff, readStatements_eq_ok_iff]
  constructor
  · rintro ⟨items, hitems, hall⟩
    obtain ⟨texts, rfl⟩ : items ∈ Set.range (List.map Value.text) := by
      rw [Set.range_list_map]
      exact hall
    exact ⟨texts, _, hitems, rfl⟩
  · rintro ⟨texts, _, hitems, rfl⟩
    exact ⟨_, hitems, List.forall_mem_map.2 fun s _ => Set.mem_range_self s⟩

theorem statements_eq_error_iff : statements fields field = .error err ↔
    Reports IsText (ReportsStatement field) fields field err := by
  simp only [statements, bind_eq_error_iff, itemsOf_eq_error_iff, itemsOf_eq_ok_iff,
    readStatements_eq_error_iff, Nat.zero_add, Reports]

theorem isGood_document_iff :
    document.IsGood fields ↔ ∃ text, documentOf fields = .ok text := by
  simp only [IsGood, documentOf_eq_ok_iff]

theorem isGood_rules_iff : rules.IsGood fields ↔
    ∃ items, itemsOf fields "rules" = .ok items ∧
      ∀ item ∈ items, ∃ rule, Rule.ofValue item = .ok rule := by
  simp only [IsGood, Lists, isRule_iff, itemsOf_eq_ok_iff]

theorem inOrder_iff : InOrder fields ↔ document.IsGood fields ∧ before.IsGood fields ∧
    after.IsGood fields ∧ rules.IsGood fields := by
  rw [isGood_document_iff, isGood_rules_iff, IsGood, IsGood, lists_isText_iff, lists_isText_iff]
  constructor
  · intro h
    exact ⟨h.document, h.before, h.after, h.rules⟩
  · rintro ⟨hdocument, hbefore, hafter, hrules⟩
    exact ⟨hdocument, hbefore, hafter, hrules⟩

/-- The sections before the declarations are read to their ends, and then it is seen whether there is a
list of declarations. -/
theorem readSections_eq_error_iff : readSections fields = .error err ↔
    document.IsBad fields err ∨ document.IsGood fields ∧ (before.IsBad fields err ∨
      before.IsGood fields ∧ (after.IsBad fields err ∨ after.IsGood fields ∧ (rules.IsBad fields err ∨
        rules.IsGood fields ∧ err = .list "inputValidation" ∧ IsNoList fields "inputValidation"))) := by
  -- One step for each section: it is bad, or it is good and the error is one of those behind it.
  refine bind_eq_error_iff_of isGood_document_iff documentOf_eq_error_iff fun _ => ?_
  refine bind_eq_error_iff_of lists_isText_iff statements_eq_error_iff fun _ => ?_
  refine bind_eq_error_iff_of lists_isText_iff statements_eq_error_iff fun _ => ?_
  have hrules : (do readRules 0 (← itemsOf fields "rules")) = .error err ↔ rules.IsBad fields err := by
    simp only [bind_eq_error_iff, itemsOf_eq_error_iff, itemsOf_eq_ok_iff, readRules_eq_error_iff,
      Nat.zero_add, IsBad, Reports]
  have hgood : rules.IsGood fields ↔
      ∃ found, (do readRules 0 (← itemsOf fields "rules")) = .ok found := by
    simp only [isGood_rules_iff, bind_eq_ok_iff, ← @readRules_isOk_iff 0]
    exact ⟨fun ⟨items, hitems, found, h⟩ => ⟨found, items, hitems, h⟩,
      fun ⟨found, items, hitems, h⟩ => ⟨items, hitems, found, h⟩⟩
  rw [← bind_assoc]
  refine bind_eq_error_iff_of hgood hrules fun _ => ?_
  rw [bind_eq_error_iff, itemsOf_eq_error_iff, or_iff_left]
  -- Behind the list of declarations nothing can fail any more.
  rintro ⟨_, -, ⟨⟩⟩

theorem comesTo_all_iff : ComesTo (IsGood fields) (fun _ s => s.IsBad fields) all err ↔
    document.IsBad fields err ∨ document.IsGood fields ∧ (before.IsBad fields err ∨
      before.IsGood fields ∧ (after.IsBad fields err ∨ after.IsGood fields ∧ (rules.IsBad fields err ∨
        rules.IsGood fields ∧ parameters.IsBad fields err))) := by
  simp only [all, comesTo_cons_iff, not_comesTo_nil, and_false, or_false]

end Section

/-- A record is reported for one of the sections before the declarations or, if these are read, for
one of the declarations. -/
theorem ofValue_record_eq_ok_error_iff : ofValue (.record fields) = .ok (.error err) ↔
    readSections fields = .error err ∨ InOrder fields ∧
      ∃ specs, HasItems fields "inputValidation" specs ∧ ComesTo IsSpec ReportsSpec specs err := by
  have hspecs {specs : List Value} :
      readSpecs 0 specs = .ok (.error err) ↔ ComesTo IsSpec ReportsSpec specs err := by
    simp only [readSpecs_eq_ok_error_iff, Nat.zero_add]
  have hinOrder {specs : List Value} : InOrder fields ∧ HasItems fields "inputValidation" specs ↔
      ∃ configuration, readSections fields = .ok (configuration, specs) := by
    rw [readSections_eq_ok_iff, itemsOf_eq_ok_iff]
  simp only [← exists_and_left, ← and_assoc, hinOrder, ← hspecs]
  rw [ofValue]
  cases readSections fields with
  | error found => simp [pure, Except.pure]
  | ok sections =>
    obtain ⟨configuration, specs⟩ := sections
    constructor
    · intro h
      obtain ⟨result, hresult, h⟩ := bind_eq_ok_iff.1 h
      cases result with
      | ok parameters => cases h
      | error found =>
        cases h
        exact .inr ⟨specs, ⟨configuration, rfl⟩, hresult⟩
    · rintro (⟨⟨⟩⟩ | ⟨_, ⟨_, ⟨⟩⟩, h⟩)
      exact bind_eq_ok_iff.2 ⟨.error err, h, rfl⟩

theorem ofValue_record_eq_ok_error_iff_comesTo : ofValue (.record fields) = .ok (.error err) ↔
    ComesTo (Section.IsGood fields) (fun _ s => s.IsBad fields) Section.all err := by
  have hparameters : Section.parameters.IsBad fields err ↔
      (err = .list "inputValidation" ∧ IsNoList fields "inputValidation") ∨
        ∃ specs, HasItems fields "inputValidation" specs ∧ ComesTo IsSpec ReportsSpec specs err :=
    Iff.rfl
  rw [ofValue_record_eq_ok_error_iff, Section.readSections_eq_error_iff, Section.inOrder_iff,
    Section.comesTo_all_iff, hparameters]
  tauto

/-- Whether a configuration is what a record describes. -/
structure DescribedBy (fields : Fields Value) (configuration : Configuration) : Prop where
  document : HasDocument fields configuration.document
  before : HasItems fields "preExecution" (configuration.before.map .text)
  after : HasItems fields "postExecution" (configuration.after.map .text)
  /-- Every rule is described by the item in its place. -/
  rules : ∃ items, HasItems fields "rules" items ∧
    List.Forall₂ (fun item (rule : Rule) => ∃ fields, item = .record fields ∧ rule.DescribedBy fields)
      items configuration.rules
  /-- Every declaration is described by the item in its place. -/
  parameters : ∃ items, HasItems fields "inputValidation" items ∧
    List.Forall₂ (fun item (spec : Parameter.Spec) =>
      ∃ fields, item = .record fields ∧ spec.DescribedBy fields) items configuration.parameters

theorem statements_eq_ok_iff {texts : List String} :
    statements fields field = .ok texts ↔ HasItems fields field (texts.map .text) := by
  simp only [statements, bind_eq_ok_iff, itemsOf_eq_ok_iff, readStatements_eq_ok_iff]
  exact ⟨fun ⟨_, hitems, h⟩ => h ▸ hitems, fun h => ⟨_, h, rfl⟩⟩

theorem sections_iff {configuration : Configuration} :
    Sections fields configuration ↔ configuration.DescribedBy fields := by
  constructor
  · rintro ⟨hdocument, hbefore, hafter, hrules, hparameters⟩
    simp only [Rule.ofValue_eq_ok_iff, Parameter.Spec.ofValue_eq_ok_iff, itemsOf_eq_ok_iff]
      at hrules hparameters
    exact ⟨documentOf_eq_ok_iff.1 hdocument, statements_eq_ok_iff.1 hbefore,
      statements_eq_ok_iff.1 hafter, hrules, hparameters⟩
  · rintro ⟨hdocument, hbefore, hafter, hrules, hparameters⟩
    simp only [← Rule.ofValue_eq_ok_iff, ← Parameter.Spec.ofValue_eq_ok_iff, ← itemsOf_eq_ok_iff]
      at hrules hparameters
    exact ⟨documentOf_eq_ok_iff.2 hdocument, statements_eq_ok_iff.2 hbefore,
      statements_eq_ok_iff.2 hafter, hrules, hparameters⟩

theorem ofValue_record_eq_ok_iff {configuration : Configuration} :
    ofValue (.record fields) = .ok (.ok configuration) ↔ configuration.DescribedBy fields := by
  rw [← sections_iff]
  constructor
  · intro h
    obtain ⟨_, ⟨⟩, hsections⟩ := exists_of_ofValue h
    exact hsections
  · rintro ⟨hdocument, hbefore, hafter, ⟨items, hitems, hrules⟩, specs, hspecs, hparameters⟩
    have hread : readSections fields = .ok ({ configuration with parameters := [] }, specs) := by
      rw [readSections, hdocument, hbefore, hafter, hitems, hspecs]
      show readRules 0 items >>= _ = _
      rw [readRules_eq_ok_iff.2 hrules]
      rfl
    rw [ofValue, hread]
    show readSpecs 0 specs >>= _ = _
    rw [readSpecs_eq_ok_iff.2 hparameters]
    rfl

/-- A record describes a configuration if and only if every section is as it has to be: the entries can
be chosen one by one. -/
theorem exists_describedBy_iff : (∃ configuration : Configuration, configuration.DescribedBy fields) ↔
    ∀ s ∈ Section.all, s.IsGood fields := by
  simp only [Section.all, List.forall_mem_cons, Section.IsGood, Section.lists_isText_iff,
    statements_eq_ok_iff]
  constructor
  · rintro ⟨configuration, h⟩
    obtain ⟨rules, hrules, hforall⟩ := h.rules
    obtain ⟨parameters, hparameters, hforall'⟩ := h.parameters
    exact ⟨⟨_, h.document⟩, ⟨_, h.before⟩, ⟨_, h.after⟩,
      ⟨rules, hrules, exists_forall₂_iff.1 ⟨_, hforall⟩⟩,
      ⟨parameters, hparameters, exists_forall₂_iff.1 ⟨_, hforall'⟩⟩, List.forall_mem_nil _⟩
  · rintro ⟨⟨document, hdocument⟩, ⟨before, hbefore⟩, ⟨after, hafter⟩, ⟨ruleItems, hruleItems, hrules⟩,
      ⟨specItems, hspecItems, hspecs⟩, -⟩
    obtain ⟨rules, hrules⟩ := exists_forall₂_iff.2 hrules
    obtain ⟨parameters, hparameters⟩ := exists_forall₂_iff.2 hspecs
    exact ⟨⟨document, before, rules, after, parameters⟩, hdocument, hbefore, hafter,
      ⟨ruleItems, hruleItems, hrules⟩, ⟨specItems, hspecItems, hparameters⟩⟩

end Configuration

/-- A configuration is read from a record that describes it, and every record that describes one is read
as that one. A record describes a configuration if and only if its sections are as they have to be.
Otherwise what is reported is what is wrong with the first section that is not, unless the reading
breaks off; and a value that is no record is reported as such. -/
theorem configuration_described_or_reported (value : Value) :
    (∀ configuration, Configuration.ofValue value = .ok (.ok configuration) ↔
      ∃ fields, value = .record fields ∧ configuration.DescribedBy fields) ∧
    ((∃ configuration, Configuration.ofValue value = .ok (.ok configuration)) ↔
      ∃ fields, value = .record fields ∧ ∀ s ∈ Configuration.Section.all, s.IsGood fields) ∧
    ∀ err, Configuration.ofValue value = .ok (.error err) ↔
      (value.isRecord = false ∧ err = .notARecord) ∨
        ∃ fields, value = .record fields ∧
          ComesTo (Configuration.Section.IsGood fields) (fun _ s => s.IsBad fields)
            Configuration.Section.all err := by
  cases value with
  | record fields =>
    simp only [Configuration.ofValue_record_eq_ok_iff, Configuration.exists_describedBy_iff,
      Configuration.ofValue_record_eq_ok_error_iff_comesTo]
    simp [Value.isRecord]
  | _ => simp [Configuration.ofValue, Value.isRecord, pure, Except.pure, eq_comm]

example : Configuration.ofValue (.record [("rules", .text "all"),
    ("postExecution", .list [.text "x = 1", .null])]) = .ok (.error (.statement "postExecution" 1)) :=
  rfl

end Rulebook
