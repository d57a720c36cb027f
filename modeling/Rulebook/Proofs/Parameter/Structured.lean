import Mathlib
import Rulebook.Proofs.Parameter.Strings
import Rulebook.Proofs.Value.Agreement

/-!
# Objects and lists as parameters

The text of a parameter that is declared as an object or as an array is read without escapes, and a
script gets what was read, written as JSON again. From a payload a script gets what JSON says. How the
two compare is said by the structure of the text: `Parameter.structured_delivered`.
-/

namespace Rulebook

open Script Json Json.Written

/-- The value under a name in a map. -/
def Script.Datum.under? (name : String) : Datum → Option Datum
  | map members => Fields.get? members name
  | _ => none

namespace Parameter

/-- Whether a structure is of a kind with members or items. -/
inductive Kind.Structures : Kind → Written → Prop where
  | object (members : List Member) : Structures .object (.object members)
  | array (items : List Written) : Structures .array (.array items)

variable {parameters : Fields String} {specs : List Spec} {spec : Spec} {values : Fields Value}
  {name raw : String} {tree : Written}

theorem Kind.coerce_of_denotes {kind : Kind} (hkind : kind.Structures tree) (h : Denotes raw tree) :
    kind.coerce raw = some tree.verbatim := by
  have hread := Verbatim.read?_of_denotes h
  cases hkind with
  | object members => rw [coerce, hread]; rfl
  | array items => rw [coerce, hread]; rfl

/-- The kind that a name is declared to have. -/
theorem exists_find?_name (hspec : spec ∈ specs)
    (hkinds : ∀ other ∈ specs, other.name = spec.name → other.kind = spec.kind) :
    ∃ other, specs.find? (·.name == spec.name) = some other ∧ other.kind = spec.kind := by
  cases hfind : specs.find? (·.name == spec.name) with
  | none => exact absurd (beq_self_eq_true _) (List.find?_eq_none.1 hfind spec hspec)
  | some other =>
    exact ⟨other, rfl, hkinds other (List.mem_of_find?_eq_some hfind)
      (by simpa using List.find?_some hfind)⟩

theorem coerceOne_of_denotes (hspec : spec ∈ specs)
    (hkinds : ∀ other ∈ specs, other.name = spec.name → other.kind = spec.kind)
    (hkind : spec.kind.Structures tree) (h : Denotes raw tree) :
    coerceOne specs spec.name raw = .ok tree.verbatim := by
  obtain ⟨other, hfind, hother⟩ := exists_find?_name hspec hkinds
  rw [coerceOne, hfind]
  dsimp only
  rw [hother, Kind.coerce_of_denotes hkind h]

/-- A violation is by a text that cannot be read, or by a value that was read. -/
theorem mem_of_rejected {rejection : Rejection} (h : validateStrings parameters specs = .error rejection)
    {violation : Violation} (hviolation : violation ∈ rejection.violations) :
    violation ∈ (coerceAll parameters specs).2 ∨
      ∃ spec ∈ specs, violation ∈ spec.violations ((coerceAll parameters specs).1.get? spec.name) := by
  rw [eq_of_verdict_eq_error h] at hviolation
  refine (List.mem_append.1 ((List.mergeSort_perm _ _).mem_iff.1 hviolation)).imp id fun hbroken => ?_
  obtain ⟨spec, hspec, hmem⟩ := List.mem_flatMap.1 hbroken
  split at hmem
  · cases hmem
  · exact ⟨spec, hspec, hmem⟩

/-- A parameter whose text is a structure of the declared kind only breaks limits. -/
theorem isLimit_of_rejected (hspec : spec ∈ specs)
    (hkinds : ∀ other ∈ specs, other.name = spec.name → other.kind = spec.kind)
    (hparameters : parameters.names.Nodup) (hraw : parameters.get? spec.name = some raw)
    (hkind : spec.kind.Structures tree) (h : Denotes raw tree) {rejection : Rejection}
    (hrejected : validateStrings parameters specs = .error rejection) {violation : Violation}
    (hviolation : violation ∈ rejection.violations) (hname : violation.parameter = spec.name) :
    violation.constraint.isLimit = true := by
  have hcoerce := coerceOne_of_denotes hspec hkinds hkind h
  rcases mem_of_rejected hrejected hviolation with hunread | ⟨other, hother, hbroken⟩
  · have hown := @filter_coerceAll parameters specs hparameters spec.name
    rw [hraw, Option.map_some, hcoerce] at hown
    have hmem : violation ∈ (coerceAll parameters specs).2.filter (·.parameter == spec.name) :=
      List.mem_filter.2 ⟨hunread, beq_iff_eq.2 hname⟩
    rw [hown] at hmem
    cases hmem
  · have hsame : other.name = spec.name := (Spec.parameter_of_mem_violations hbroken).symm.trans hname
    have hvalue := @get?_coerceAll parameters specs hparameters spec.name
    rw [hraw, Option.bind_some, hcoerce] at hvalue
    rw [hsame, hvalue] at hbroken
    obtain ⟨haccepts, hmissing⟩ := Kind.accepts_of_coerce (Kind.coerce_of_denotes hkind h)
    rw [← hkinds other hother hsame] at haccepts
    exact Spec.isLimit_of_mem_violations haccepts hmissing hbroken

/-! ### What a script finds -/

/-- From a payload a script gets what JSON says. -/
theorem under?_singleton (h : Denotes raw tree) (name : String) :
    (Datum.readJson? (Json.singleton name raw)).bind (Datum.under? name) =
      if tree.nesting < maxDepth then tree.standard.map Datum.ofJson else none := by
  rw [Datum.readJson?, read?_singleton h]
  split
  · cases tree.standard with
    | none => rfl
    | some json => exact if_pos rfl
  · rfl

/-- The only parameter of a call is written as an object with one member. -/
theorem depth_of_single (haccepted : Accepted specs [(name, raw)] values) {value : Value}
    (hvalue : values.get? name = some value) {form json : Json} (hform : value.toJson = some form)
    (hjson : (Value.record values).toJson = some json) : json.depth = form.depth + 1 := by
  cases haccepted.read with
  | @cons _ found _ _ hfirst hrest =>
    cases hrest
    rw [Fields.get?_cons, if_pos hfirst.1] at hvalue
    cases hvalue
    rw [Value.toJson, Value.toJsonFields, hform] at hjson
    cases hjson
    exact congrArg (· + 1) (Nat.max_zero _)

/-- From the text of a parameter a script gets what was read without escapes. -/
theorem under?_of_request (hspec : spec ∈ specs)
    (hkinds : ∀ other ∈ specs, other.name = spec.name → other.kind = spec.kind)
    (hparameters : parameters.names.Nodup) (hraw : parameters.get? spec.name = some raw)
    (hkind : spec.kind.Structures tree) (h : Denotes raw tree) {form : Json}
    (hform : tree.verbatim.toJson = some form) {request : Request}
    (hrequest : (Operation.executeStrings parameters).request specs = some (.ok request)) :
    ∃ json : Json, request.text = json.compact ∧
      (parameters = [(spec.name, raw)] → json.depth = form.depth + 1) ∧
      (Datum.readJson? request.text).bind (Datum.under? spec.name) =
        if json.depth ≤ maxDepth then some (Datum.ofJson form) else none := by
  obtain ⟨values, hvalues⟩ : ∃ values, validateStrings parameters specs = .ok values := by
    cases hverdict : validateStrings parameters specs with
    | ok values => exact ⟨values, rfl⟩
    | error reason =>
      rw [Operation.request, hverdict] at hrequest
      cases hrequest
  obtain ⟨json, hjson, rfl⟩ := Operation.request_of_parameters hrequest
    (congrArg Except.toOption hvalues)
  have haccepted := accepted_of_validateStrings hvalues
  have hvalue : values.get? spec.name = some tree.verbatim := by
    have hrel := haccepted.rel_get? spec.name
    rw [hraw] at hrel
    generalize values.get? spec.name = value at hrel
    cases hrel with
    | some hread =>
      rw [coerceOne_of_denotes hspec hkinds hkind h] at hread
      cases hread
      rfl
  refine ⟨json, rfl, fun hsingle => depth_of_single (hsingle ▸ haccepted) hvalue hform hjson, ?_⟩
  -- A script keeps every value under its name, and reading the form again changes nothing.
  obtain ⟨members, hmap, hmembers⟩ :=
    Value.exists_map_of_toJson hjson (haccepted.names_eq ▸ hparameters)
  obtain ⟨found, hfound, hget⟩ := hmembers _ _ hvalue
  cases hform.symm.trans hfound
  rw [(settled_of_toJson hform).1] at hget
  rw [Datum.readJson?, Json.read?_compact (Value.writable_toJson hjson (Value.doublesReadBack _))]
  split
  · rw [Option.map_some, hmap, Option.bind_some]
    exact hget
  · rfl

end Parameter
end Rulebook
