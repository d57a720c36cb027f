import Mathlib
import Rulebook.Proofs.Engine.Calls
import Rulebook.Proofs.Parameter.Origins

/-!
# The verdict on an integer

A small natural number can reach an engine as a value in one of three machine formats, as the member
of a JSON payload, or as a decimal text. The limits of a declaration look at the number; the list of
allowed values looks at the format as well, and a configuration text lists all its small numbers in
one format. So the same number is judged by its limits alike on every path, and if it is listed, it
is refused on all paths but those that end in the format of the configuration text:
`verdict_on_integer`.
-/

namespace Rulebook

variable {n : Nat} {format : IntegerFormat}

/-! ### Numbers in a format -/

namespace Number

theorem toInt?_number (h : IsSmall n) (format : IntegerFormat) :
    (format.number n).toInt? = some (n : Int) := by
  unfold IsSmall at h
  cases format with
  | int32 =>
    show some (Int32.ofNat n).toInt = _
    rw [Int32.toInt_ofNat_of_lt h]
  | int64 =>
    show some (Int64.ofNat n).toInt = _
    rw [Int64.toInt_ofNat_of_lt (by omega)]
  | word64 =>
    have hword : (UInt64.ofNat n).toNat = n :=
      UInt64.toNat_ofNat_of_lt (by show n < 18446744073709551616; omega)
    show some ((UInt64.ofNat n).toNat : Int) = _
    rw [hword]

/-- As a double a number does not remember its format. -/
theorem toFloat_number (h : IsSmall n) (format : IntegerFormat) :
    (format.number n).toFloat = Decimal.ofInt n := by
  have hint := toInt?_number h format
  cases format <;>
  · show Decimal.ofInt _ = _
    rw [Option.some.inj hint]

theorem isDouble_number (format : IntegerFormat) : (format.number n).isDouble = false := by
  cases format <;> rfl

/-- Numbers that compare equal and are no doubles denote the same integer. -/
theorem toInt?_eq_of_same {a b : Number} (h : a.same b = true) (hb : b.isDouble = false) :
    a.toInt? = b.toInt? := by
  unfold same at h
  split at h
  · rw [eq_of_beq h]
  · rw [eq_of_beq h]
  · rw [eq_of_beq h]
  · cases hb
  · rw [eq_of_beq h]
  · cases h

theorem same_number_iff {stored : IntegerFormat} :
    (stored.number n).same (format.number n) = true ↔ format = stored := by
  constructor
  · intro h
    cases stored <;> cases format <;> first | rfl | cases h
  · rintro rfl
    cases format <;> exact beq_self_eq_true _

end Number

/-! ### One declaration -/

namespace Parameter.Spec

variable {spec : Spec}

/-- Whether the declaration lists a number among the allowed values. -/
def lists (spec : Spec) (n : Nat) : Bool :=
  spec.allowed.any fun
    | .number k => k.toInt? == some (n : Int)
    | _ => false

/-- Whether a number that arrives in one format is allowed by a declaration whose numbers are stored
in another. -/
def allows (spec : Spec) (stored format : IntegerFormat) (n : Nat) : Bool :=
  spec.allowed.isEmpty || (format == stored && spec.lists n)

/-- A listed number is found if it arrives in the format in which the list is stored. -/
theorem any_same_number {stored : IntegerFormat}
    (hstored : ∀ item ∈ spec.allowed, item.NumbersAre (Number.Settles stored)) (hn : IsSmall n) :
    spec.allowed.any (·.same (.number (format.number n))) = (format == stored && spec.lists n) := by
  rw [Bool.eq_iff_iff, Bool.and_eq_true, beq_iff_eq, lists, List.any_eq_true, List.any_eq_true]
  constructor
  · rintro ⟨item, hitem, hsame⟩
    cases item with
    | number k =>
      have hint : k.toInt? = some (n : Int) := by
        rw [Number.toInt?_eq_of_same hsame (Number.isDouble_number format),
          Number.toInt?_number hn]
      have hk : k = stored.number n := hstored _ hitem n hn hint
      rw [hk] at hsame
      exact ⟨Number.same_number_iff.1 hsame, _, hitem, beq_iff_eq.2 hint⟩
    | _ => cases hsame
  · rintro ⟨rfl, item, hitem, hlisted⟩
    cases item with
    | number k =>
      have hk : k = format.number n := hstored _ hitem n hn (eq_of_beq hlisted)
      refine ⟨_, hitem, ?_⟩
      rw [hk]
      exact Number.same_number_iff.2 rfl
    | _ => cases hlisted

theorem allowedViolations_number {stored : IntegerFormat}
    (hstored : ∀ item ∈ spec.allowed, item.NumbersAre (Number.Settles stored)) (hn : IsSmall n) :
    spec.allowedViolations (.number (format.number n)) =
      if spec.allows stored format n then [] else [spec.violation .allowed] := by
  rw [allowedViolations, any_same_number hstored hn]
  rfl

theorem rangeViolations_number (hn : IsSmall n) (format : IntegerFormat) :
    spec.rangeViolations (.number (format.number n)) =
      spec.rangeViolations (.number (.wide n)) := by
  have hfloat : (format.number n).toFloat = (Number.wide n).toFloat := Number.toFloat_number hn format
  rw [rangeViolations, hfloat]
  rfl

/-- A declaration of integers puts limits and a list of allowed values on a number. -/
theorem violations_number {stored : IntegerFormat} (hkind : spec.kind = .integer)
    (hstored : ∀ item ∈ spec.allowed, item.NumbersAre (Number.Settles stored)) (hn : IsSmall n) :
    spec.violations (some (.number (format.number n))) =
      spec.rangeViolations (.number (.wide n)) ++
        if spec.allows stored format n then [] else [spec.violation .allowed] := by
  have haccepts : spec.kind.accepts (.number (format.number n)) = true := by
    rw [hkind]
    show (!(format.number n).isDouble) = true
    rw [Number.isDouble_number]
    rfl
  show (if _ then _ else _) = _
  rw [if_pos haccepts, rangeViolations_number hn, allowedViolations_number hstored hn]
  show (_ ++ [] ++ [] ++ _) = _
  rw [List.append_nil, List.append_nil]

/-- The formats agree on a number unless it is listed. -/
theorem violations_number_agree_iff {stored : IntegerFormat} (hkind : spec.kind = .integer)
    (hstored : ∀ item ∈ spec.allowed, item.NumbersAre (Number.Settles stored)) (hn : IsSmall n) :
    (∀ format format' : IntegerFormat, spec.violations (some (.number (format.number n))) =
      spec.violations (some (.number (format'.number n)))) ↔
        spec.allowed = [] ∨ spec.lists n = false := by
  constructor
  · intro hagree
    by_contra hnot
    obtain ⟨hallowed, hlists⟩ := not_or.1 hnot
    rw [Bool.not_eq_false] at hlists
    obtain ⟨other, hother⟩ : ∃ other, other ≠ stored := by
      cases stored
      · exact ⟨.int64, by decide⟩
      · exact ⟨.int32, by decide⟩
      · exact ⟨.int32, by decide⟩
    have hsame : spec.allows stored stored n = true := by simp [allows, hlists]
    have hdiffer : spec.allows stored other n = false := by simp [allows, hallowed, hother]
    have htails := hagree stored other
    rw [violations_number hkind hstored hn, violations_number hkind hstored hn, hsame,
      hdiffer] at htails
    have hnil : [] = [spec.violation .allowed] := List.append_cancel_left htails
    cases hnil
  · intro h format format'
    have hallows : spec.allows stored format n = spec.allows stored format' n := by
      rcases h with hallowed | hlists
      · simp [allows, hallowed]
      · simp [allows, hlists]
    rw [violations_number hkind hstored hn, violations_number hkind hstored hn, hallows]

end Parameter.Spec

/-! ### Texts of numbers -/

theorem Text.trim_of_all_isDigit {s : List Char} (h : s.all Char.isDigit = true) :
    Text.trim s = s := by
  have hkeep {t : List Char} (ht : ∀ c ∈ t, c.isDigit = true) : t.dropWhile Text.isBlank = t := by
    cases t with
    | nil => rfl
    | cons c rest =>
      rw [List.dropWhile_cons_of_neg]
      rw [Json.isBlank_of_isNumeralPart (Json.isNumeralPart_of_isDigit (ht c List.mem_cons_self))]
      exact Bool.false_ne_true
  have hall := List.all_eq_true.1 h
  rw [Text.trim, Text.trimLeft, hkeep hall, Text.trimRight, hkeep, List.reverse_reverse]
  exact fun c hc => hall c (List.mem_reverse.1 hc)

/-- The decimal text of a number is read as a signed integer of 64 bits. -/
theorem Parameter.Kind.coerce_integer_toString (h : IsSmall n) :
    Kind.integer.coerce (toString n) = some (.number (.int64 (Int64.ofNat n))) := by
  unfold IsSmall at h
  have htext : (toString n).toList = Nat.toDigits 10 n := by
    show (Nat.repr n).toList = _
    rw [Nat.repr_eq_ofList_toDigits, String.toList_ofList]
  have hdigits : Decimal.natOfDigits (Nat.toDigits 10 n) = n :=
    Nat.ofDigitChars_toDigits (by decide) (by decide)
  obtain ⟨c, rest, heq, hdigit, -⟩ := Json.exists_toDigits_eq_cons n
  have hempty : (Nat.toDigits 10 n).isEmpty = false := by
    rw [heq]
    rfl
  have hsign : Decimal.splitSign (Nat.toDigits 10 n) = (false, Nat.toDigits 10 n) := by
    rw [heq, Decimal.splitSign.eq_def]
    split
    · rename_i h
      cases h
      exact absurd hdigit (by decide)
    · rename_i h
      cases h
      exact absurd hdigit (by decide)
    · rfl
  have hread : Decimal.readInt64? (Nat.toDigits 10 n) = some (Int64.ofNat n) := by
    rw [Decimal.readInt64?, hsign]
    dsimp only
    rw [Json.all_isDigit_toDigits, hempty, hdigits, if_neg (by decide), if_neg Bool.false_ne_true,
      if_pos (by omega)]
    rfl
  show (Decimal.readInt64? (Text.trim (toString n).toList)).map Value.ofInt64 = _
  rw [htext, Text.trim_of_all_isDigit (Json.all_isDigit_toDigits n), hread]
  rfl

/-! ### Calls -/

/-- Whether a call passes a number under a name, so that it arrives in a format. -/
inductive Carries (name : String) (n : Nat) : Operation → IntegerFormat → Prop where
  | value (format : IntegerFormat) :
    Carries name n (.execute [(name, .number (format.number n))]) format
  | payload {input : String} (h : Json.read? input = some (.object [(name, .integer n)])) :
    Carries name n (.executeJson input) .word64
  | text : Carries name n (.executeStrings [(name, toString n)]) .int64

namespace Parameter

/-- The declarations of a name. -/
def declarations (specs : List Spec) (name : String) : List Spec := specs.filter (·.name == name)

/-- A declaration only speaks of its own parameter. -/
theorem Spec.parameter_of_mem_violations {spec : Spec} {value : Option Value}
    {violation : Violation} (h : violation ∈ spec.violations value) :
    violation.parameter = spec.name := by
  unfold violations at h
  split at h
  · grind [Spec.violation]
  · rename_i found _
    split at h
    · simp only [List.mem_append] at h
      rcases h with ((hrange | hlength) | hpattern) | hallowed
      · cases found <;> grind [rangeViolations, Spec.violation]
      · grind [lengthViolations, Spec.violation]
      · cases found <;> grind [patternViolations, Spec.violation]
      · grind [allowedViolations, Spec.violation]
    · rw [List.mem_singleton.1 h]
      rfl

/-- What declarations report under a name is what the declarations of the name report. -/
theorem filter_flatMap {specs : List Spec} {report : Spec → List Violation}
    (h : ∀ spec ∈ specs, ∀ violation ∈ report spec, violation.parameter = spec.name)
    (name : String) :
    (specs.flatMap report).filter (·.parameter == name) =
      (declarations specs name).flatMap report := by
  induction specs with
  | nil => rfl
  | cons spec rest ih =>
    obtain ⟨hspec, hrest⟩ := List.forall_mem_cons.1 h
    rw [List.flatMap_cons, List.filter_append, ih hrest, declarations, declarations,
      List.filter_cons]
    by_cases hname : spec.name = name
    · have hall : ∀ violation ∈ report spec, (violation.parameter == name) = true := by
        intro violation hviolation
        rw [hspec violation hviolation, hname]
        exact beq_self_eq_true name
      rw [if_pos (beq_iff_eq.2 hname), List.flatMap_cons, List.filter_eq_self.2 hall]
    · have hnone : ∀ violation ∈ report spec, ¬(violation.parameter == name) = true := by
        intro violation hviolation
        rw [hspec violation hviolation, beq_iff_eq]
        exact hname
      rw [if_neg (mt beq_iff_eq.1 hname), List.filter_eq_nil_iff.2 hnone, List.nil_append]

/-- What is found wrong under a name is what the declarations of the name find. -/
theorem filter_flatMap_violations (specs : List Spec) (values : Fields Value) (name : String) :
    (specs.flatMap fun spec => spec.violations (values.get? spec.name)).filter
        (·.parameter == name) =
      (declarations specs name).flatMap (·.violations (values.get? name)) := by
  rw [filter_flatMap fun spec _ violation => Spec.parameter_of_mem_violations]
  refine congrArg List.flatten (List.map_congr_left fun spec hspec => ?_)
  rw [eq_of_beq (List.mem_filter.1 hspec).2]

/-- Putting violations in the order of the declarations does not change the order of those of one
parameter. -/
theorem filter_inDeclarationOrder (specs : List Spec) (violations : List Violation)
    (name : String) :
    (inDeclarationOrder specs violations).filter (·.parameter == name) =
      violations.filter (·.parameter == name) := by
  set le : Violation → Violation → Bool := fun a b =>
    declaredAt specs a.parameter ≤ declaredAt specs b.parameter with hle
  set own := violations.filter (·.parameter == name) with hown
  -- Those of one parameter are in order already, so a stable sort keeps them as they are.
  have hpairwise : own.Pairwise (le · ·) := by
    refine List.pairwise_iff_forall_sublist.2 fun {a b} hab => ?_
    have hname {c : Violation} (hc : c ∈ own) : c.parameter = name :=
      eq_of_beq (List.mem_filter.1 hc).2
    have ha := hname (hab.subset List.mem_cons_self)
    have hb := hname (hab.subset (List.mem_cons_of_mem _ List.mem_cons_self))
    rw [hle]
    dsimp only
    rw [ha, hb]
    exact decide_eq_true (Nat.le_refl _)
  have hsublist : own.Sublist (violations.mergeSort le) := by
    refine List.sublist_mergeSort ?_ ?_ hpairwise List.filter_sublist
    · intro a b c hab hbc
      exact decide_eq_true (Nat.le_trans (of_decide_eq_true hab) (of_decide_eq_true hbc))
    · intro a b
      rw [Bool.or_eq_true]
      exact (Nat.le_total _ _).imp decide_eq_true decide_eq_true
  have hfiltered : own.Sublist ((violations.mergeSort le).filter (·.parameter == name)) := by
    have hself : own.filter (·.parameter == name) = own :=
      List.filter_eq_self.2 fun c hc => (List.mem_filter.1 hc).2
    have := hsublist.filter (·.parameter == name)
    rwa [hself] at this
  exact (hfiltered.eq_of_length ((List.mergeSort_perm _ _).filter _).length_eq.symm).symm

end Parameter

/-- The violations by a parameter for which something is refused. -/
def refused {α : Type} (name : String) : Except EngineError α → List Parameter.Violation
  | .error (.validation reason) => reason.violations.filter (·.parameter == name)
  | _ => []

/-- The violations by a parameter that an answer reports. -/
def reported (name : String) : Answer → List Parameter.Violation
  | .ok result => refused name result
  | .error _ => []

theorem refused_ofParameters (name : String) (parameters : Fields Value) :
    refused name (Request.ofParameters parameters) = [] := by
  rw [Request.ofParameters]
  split <;> rfl

/-- Compiling and building a script refuse no input. -/
theorem refused_script {bare : BareEngine} {err : EngineError} (h : bare.script = .error err)
    {α : Type} (name : String) : refused name (Except.error err : Except EngineError α) = [] := by
  have htext : ∀ {err : EngineError}, bare.text = .error err →
      refused name (Except.error err : Except EngineError α) = [] := by
    intro err h
    unfold BareEngine.text at h
    split at h
    · cases h
      rfl
    · cases hcompile : compileWithDocument _ _ bare.registry with
      | ok source =>
        rw [hcompile] at h
        cases h
      | error reason =>
        rw [hcompile] at h
        cases h
        rfl
  unfold BareEngine.script at h
  cases hsource : bare.text with
  | error found =>
    rw [hsource] at h
    cases h
    exact htext hsource
  | ok source =>
    rw [hsource] at h
    change (Script.build bare.sandbox source).mapError EngineError.script = _ at h
    cases hbuild : Script.build bare.sandbox source with
    | ok script =>
      rw [hbuild] at h
      cases h
    | error reason =>
      rw [hbuild] at h
      cases h
      rfl

/-- Only the check of the input refuses it. -/
theorem reported_of_request {bare : BareEngine} {loaded : Loaded}
    (h : bare.loaded = some loaded) (host : Host) {operation : Operation}
    {result : Except EngineError Request}
    (hrequest : operation.request loaded.configuration.parameters = some result) (name : String) :
    reported name (operation.performBare host bare).1 = refused name result := by
  rw [BareEngine.performBare_of_request h host hrequest, BareSession.bind_apply]
  cases result with
  | error err => cases err <;> rfl
  | ok request =>
    rw [BareEngine.serve_ok]
    cases hscript : bare.script with
    | ok script =>
      rw [BareEngine.run_apply hscript]
      rcases (script.execute request.text host).2 with fault | err | text
      · rfl
      · rfl
      · rfl
    | error err =>
      rw [BareEngine.run_of_error hscript]
      exact refused_script hscript name

/-- A check that found violations refuses for those, and one that found none does not refuse. -/
theorem exists_request_of_verdict {α : Type} {name : String} {specs : List Parameter.Spec}
    {operation : Operation} {check : Except Parameter.Rejection α} {a : α}
    {violations : List Parameter.Violation} (hcheck : check = Parameter.verdict violations a)
    (hok : check = .ok a → ∃ result, operation.request specs = some result ∧
      refused name result = [])
    (herror : ∀ reason, check = .error reason →
      operation.request specs = some (.error (.validation reason))) :
    ∃ result, operation.request specs = some result ∧
      refused name result = violations.filter (·.parameter == name) := by
  cases violations with
  | nil => exact hok hcheck
  | cons violation rest => exact ⟨_, herror _ hcheck, rfl⟩

/-- The decimal text of a number is read as its only value. -/
theorem Parameter.coerceAll_toString {name : String} {specs : List Spec} {spec : Spec}
    (hspec : specs.find? (·.name == name) = some spec) (hkind : spec.kind = .integer)
    (hn : IsSmall n) : coerceAll [(name, toString n)] specs =
      ([(name, .number (.int64 (Int64.ofNat n)))], []) := by
  have hone : coerceOne specs name (toString n) = .ok (.number (.int64 (Int64.ofNat n))) := by
    rw [coerceOne, hspec]
    dsimp only
    rw [hkind, Kind.coerce_integer_toString hn]
  have hsort : inDeclarationOrder specs [] = [] := List.mergeSort_nil
  rw [coerceAll]
  simp only [List.filterMap_cons, hone, List.filterMap_nil, hsort]
  rfl

/-- A number that is carried to an engine is judged by the declarations of its name, in the format in
which it arrives. -/
theorem Carries.exists_request {name : String} {specs : List Parameter.Spec}
    {operation : Operation} (h : Carries name n operation format) (hn : IsSmall n)
    (hfirst : (specs.find? (·.name == name)).map (·.kind) = some .integer) :
    ∃ result, operation.request specs = some result ∧ refused name result =
      (Parameter.declarations specs name).flatMap
        (·.violations (some (.number (format.number n)))) := by
  obtain ⟨spec, hspec, hkind⟩ := Option.map_eq_some_iff.1 hfirst
  have hget : Fields.get? [(name, Value.number (format.number n))] name =
      some (.number (format.number n)) := if_pos rfl
  have hfilter := Parameter.filter_flatMap_violations specs
    [(name, .number (format.number n))] name
  rw [hget] at hfilter
  -- the payload and the values are checked as they are, the text after it was read
  cases h with
  | value =>
    have hcheck : Parameter.validate [(name, .number (format.number n))] specs =
        Parameter.verdict (specs.flatMap fun spec => spec.violations
          (Fields.get? [(name, .number (format.number n))] spec.name)) () := rfl
    rw [← hfilter]
    refine exists_request_of_verdict hcheck (fun hok => ?_) (fun reason herror => ?_)
    · exact ⟨_, by rw [Operation.request, hok], refused_ofParameters name _⟩
    · rw [Operation.request, herror]
  | @payload input hread =>
    have hvalue : Value.readJson? input =
        some (.record [(name, .number (IntegerFormat.word64.number n))]) := by
      rw [Value.readJson?, hread]
      rfl
    have hcheck : Parameter.validate
        (Engine.payload (.record [(name, .number (IntegerFormat.word64.number n))])) specs =
        Parameter.verdict (specs.flatMap fun spec => spec.violations
          (Fields.get? [(name, .number (IntegerFormat.word64.number n))] spec.name)) () := rfl
    rw [← hfilter]
    refine exists_request_of_verdict hcheck (fun hok => ?_) (fun reason herror => ?_)
    · refine ⟨.ok ⟨input, true⟩, ?_, rfl⟩
      rw [Operation.request_of_readable hvalue, hok]
      rfl
    · rw [Operation.request_of_readable hvalue, herror]
      rfl
  | text =>
    have hcheck : Parameter.validateStrings [(name, toString n)] specs =
        Parameter.verdict (Parameter.inDeclarationOrder specs
          (specs.flatMap fun spec => spec.violations
            (Fields.get? [(name, .number (IntegerFormat.int64.number n))] spec.name)))
          [(name, .number (IntegerFormat.int64.number n))] := by
      rw [Parameter.validateStrings, Parameter.coerceAll_toString hspec hkind hn]
      rfl
    rw [← hfilter, ← Parameter.filter_inDeclarationOrder specs]
    refine exists_request_of_verdict hcheck (fun hok => ?_) (fun reason herror => ?_)
    · exact ⟨_, by rw [Operation.request, hok], refused_ofParameters name _⟩
    · rw [Operation.request, herror]

/-- Whether the small numbers of the configuration texts of a source are stored in a format. -/
inductive Source.Stores : Source → IntegerFormat → Prop where
  | json : Stores .json .int32
  | yaml : Stores .yaml .word64

theorem Source.Stores.settled {source : Source} {stored : IntegerFormat}
    (h : source.Stores stored) {text : String} {value : Value}
    (hvalue : source.value text = .ok value) : value.NumbersAre (Number.Settles stored) := by
  cases h with
  | json =>
    simp only [Source.json] at hvalue
    split at hvalue
    · rename_i hread
      cases hvalue
      exact Verbatim.settled_of_read? hread
    · cases hvalue
  | yaml =>
    simp only [Source.yaml] at hvalue
    split at hvalue
    · rename_i hread
      cases hvalue
      obtain ⟨node, -, hnode⟩ := Option.bind_eq_some_iff.1 hread
      exact Yaml.Node.settled_toValueAt hnode
    · cases hvalue

variable (host : Host) (files : Fields String)

/-- **The verdict on an integer.** An engine reports of a number, however it is carried there, what the
declarations of its name find in the format in which it arrives. A declaration of integers that was
read from a configuration text finds the same limits broken in all formats, and a list of allowed
values broken unless it is empty or the number is listed and arrives in the format of the text. So
the verdicts agree if the number is not listed or nothing has to be, and not otherwise. -/
theorem verdict_on_integer (before : List Operation) {loaded : Loaded} {source : Source}
    {stored : IntegerFormat} {text name : String} (hsource : source.Stores stored)
    (htext : source.configuration text = .ok (.ok loaded.configuration))
    (hloaded : (Engine.transcript host files before {}).2.loaded = some loaded)
    (hfirst : (loaded.configuration.parameters.find? (·.name == name)).map (·.kind) = some .integer)
    (hn : IsSmall n) :
    let engine := (Engine.transcript host files before {}).2
    let declared := Parameter.declarations loaded.configuration.parameters name
    (∀ operation format, Carries name n operation format →
      reported name (operation.perform.onHost host files engine).1 =
        declared.flatMap (·.violations (some (.number (format.number n))))) ∧
    ∀ spec ∈ declared, spec.kind = .integer →
      (∀ format : IntegerFormat, spec.violations (some (.number (format.number n))) =
        spec.rangeViolations (.number (.wide n)) ++
          if spec.allows stored format n then [] else [spec.violation .allowed]) ∧
      ((∀ format format' : IntegerFormat, spec.violations (some (.number (format.number n))) =
          spec.violations (some (.number (format'.number n)))) ↔
        spec.allowed = [] ∨ spec.lists n = false) := by
  intro engine declared
  constructor
  · intro operation format hcarries
    have hu : engine.UpToDate := Engine.upToDate_transcript host files before
    obtain ⟨-, hbare⟩ := hu.perform host files operation
    obtain ⟨result, hrequest, hrefused⟩ := hcarries.exists_request hn hfirst
    have hreported : reported name (operation.performBare host engine.bare).1 =
        refused name result := reported_of_request hloaded host hrequest name
    rw [hbare] at hreported
    exact hreported.trans hrefused
  · intro spec hspec hkind
    have hstored := Source.settled_allowed (fun _ => hsource.settled) htext
      (List.mem_filter.1 hspec).1
    exact ⟨fun _ => Parameter.Spec.violations_number hkind hstored hn,
      Parameter.Spec.violations_number_agree_iff hkind hstored hn⟩

/-- An age that a JSON text allows is allowed as a value of 32 bits and refused as a text. -/
theorem verdict_on_integer_of_allowed_age :
    ∃ configuration, Source.json.configuration
        "\x7b\"inputValidation\":[\x7b\"name\":\"age\",\"type\":\"integer\",\"allowed\":[18]\x7d]\x7d" =
          .ok (.ok configuration) ∧
      let engine := (Engine.transcript {} [] [.setConfiguration configuration] {}).2
      reported "age" ((Operation.execute [("age", .number (.int32 18))]).perform.onHost
          {} [] engine).1 = [] ∧
        reported "age" ((Operation.executeStrings [("age", "18")]).perform.onHost
          {} [] engine).1 = [⟨"age", .allowed, none⟩] := by
  let age : Parameter.Spec := { name := "age", kind := .integer, allowed := [.number (.int32 18)] }
  have htext : Source.json.configuration
      "\x7b\"inputValidation\":[\x7b\"name\":\"age\",\"type\":\"integer\",\"allowed\":[18]\x7d]\x7d" =
        .ok (.ok { parameters := [age] }) := by cbv
  have hfirst : (([age].find? (·.name == "age")).map (·.kind)) = some .integer := rfl
  have hsmall : IsSmall 18 := by
    unfold IsSmall
    decide
  obtain ⟨hreported, hdeclared⟩ := verdict_on_integer {} []
    [.setConfiguration { parameters := [age] }] .json htext rfl hfirst hsmall
  obtain ⟨hage, -⟩ := hdeclared age (List.mem_filter.2 ⟨List.mem_singleton.2 rfl, rfl⟩) rfl
  refine ⟨_, htext, ?_, ?_⟩
  · exact (hreported _ _ (.value .int32)).trans
      ((congrArg (· ++ []) (hage .int32)).trans rfl)
  · exact (hreported _ _ .text).trans
      ((congrArg (· ++ []) (hage .int64)).trans rfl)

end Rulebook
