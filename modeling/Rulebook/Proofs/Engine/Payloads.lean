import Rulebook.Proofs.Engine.Survival

/-!
# What counts as JSON

Whether a text is JSON is decided twice: before the script runs, by the reader of payloads, and in the
script, by its own reader. Here the two agree: on which texts are JSON, and on what the members of an
object are. The text of parameters is JSON unless they are nested too deeply.
-/

namespace Rulebook

open Script Script.Eval Compilation

/-- Whether a value and a script value denote the same JSON value. An integer that is too large for
scripts is the nearest double there. -/
inductive Agree : Value → Datum → Prop where
  | null : Agree .null .unit
  | bool (b : Bool) : Agree (.bool b) (.bool b)
  | text (s : String) : Agree (.text s) (.text s)
  | integer {k : Number} {n : Int64} (same : k.toInt? = some n.toInt) : Agree (.number k) (.int n)
  | large {k : Number} {n : Int} (same : k.toInt? = some n) (beyond : 0x8000000000000000 ≤ n) :
    Agree (.number k) (.float (Decimal.ofInt n))
  | double (x : Float) : Agree (.number (.double x)) (.float x)
  | list {values : List Value} {data : List Datum} (length : values.length = data.length)
    (items : ∀ (i : Nat) (value : Value) (datum : Datum), values[i]? = some value →
      data[i]? = some datum → Agree value datum) : Agree (.list values) (.list data)
  | record {fields : Fields Value} {members : Fields Datum} (pick : String → Datum)
    (has : ∀ name, members.has name = fields.has name)
    (found : ∀ name, fields.has name = true → members.get? name = some (pick name))
    (agree : ∀ (name : String) (value : Value), fields.get? name = some value →
      Agree value (pick name)) : Agree (.record fields) (.map members)

/-- The number that a JSON integer is. -/
theorem exists_number_of_integer {n : Int}
    (h : -0x8000000000000000 ≤ n ∧ n < 0x10000000000000000) :
    ∃ k : Number, Value.ofJson (.integer n) = .number k ∧ k.toInt? = some n := by
  rw [Value.ofJson]
  split
  · refine ⟨_, rfl, ?_⟩
    have hnat : (UInt64.ofNat n.toNat).toNat = n.toNat :=
      UInt64.toNat_ofNat_of_lt (by show _ < 18446744073709551616; omega)
    rw [Number.toInt?, hnat, Int.toNat_of_nonneg ‹_›]
  · refine ⟨_, rfl, ?_⟩
    have hint : (Int64.ofInt n).toInt = n := Int64.toInt_ofInt_of_le (by omega) (by omega)
    rw [Number.toInt?, hint]

theorem agree_integer {n : Int} (h : -0x8000000000000000 ≤ n ∧ n < 0x10000000000000000) :
    Agree (Value.ofJson (.integer n)) (Datum.ofJson (.integer n)) := by
  obtain ⟨k, hk, hsame⟩ := exists_number_of_integer h
  rw [hk, Datum.ofJson]
  split
  · have hint : (Int64.ofInt n).toInt = n := Int64.toInt_ofInt_of_le (by omega) (by omega)
    exact .integer (by rw [hint, hsame])
  · exact .large hsame (by omega)

theorem length_ofJsonItems (items : List Json) :
    (Value.ofJsonItems items).length = (Datum.ofJsonItems items).length := by
  induction items with
  | nil => rfl
  | cons item rest ih => exact congrArg (· + 1) ih

/-- Under every name there are readings of the same member. -/
theorem get?_ofJsonMembers (members : List (String × Json)) (name : String) :
    Fields.get? (Value.ofJsonMembers members) name = (Fields.get? members name).map Value.ofJson ∧
      Fields.get? (Datum.ofJsonMembers members) name = (Fields.get? members name).map Datum.ofJson := by
  induction members with
  | nil => exact ⟨rfl, rfl⟩
  | cons member rest ih =>
    obtain ⟨key, value⟩ := member
    rw [Value.ofJsonMembers, Datum.ofJsonMembers, Fields.get?_putSorted, Fields.get?_cons,
      Fields.get?_cons]
    split
    · exact ⟨rfl, rfl⟩
    · exact ih

mutual

/-- The two readings of a JSON value agree. -/
theorem agree_ofJson : ∀ {value : Json}, value.IntegersFit →
    Agree (Value.ofJson value) (Datum.ofJson value)
  | .null, _ => .null
  | .bool b, _ => .bool b
  | .integer _, h => agree_integer h
  | .real x, _ => .double x
  | .string s, _ => .text s
  | .array items, h => .list (length_ofJsonItems items) (agree_ofJsonItems h)
  | .object members, h => by
    have hget := get?_ofJsonMembers members
    refine .record (fun name => (Fields.get? (Datum.ofJsonMembers members) name).getD .unit) ?_ ?_ ?_
    · intro name
      rw [Fields.has, Fields.has, (hget name).1, (hget name).2, Option.isSome_map,
        Option.isSome_map]
    · intro name hhas
      rw [Fields.has, (hget name).1, Option.isSome_map] at hhas
      rw [(hget name).2]
      obtain ⟨member, hmember⟩ := Option.isSome_iff_exists.1 hhas
      rw [hmember]
      rfl
    · intro name value hvalue
      rw [(hget name).1] at hvalue
      obtain ⟨member, hmember, rfl⟩ := Option.map_eq_some_iff.1 hvalue
      rw [(hget name).2, hmember]
      exact agree_ofJsonMembers h (name, member) (Fields.mem_of_get?_eq_some hmember)

theorem agree_ofJsonItems : ∀ {items : List Json}, Json.IntegersFitItems items →
    ∀ (i : Nat) (value : Value) (datum : Datum), (Value.ofJsonItems items)[i]? = some value →
      (Datum.ofJsonItems items)[i]? = some datum → Agree value datum
  | [], _, _, _, _, h, _ => by cases h
  | item :: rest, hfit, 0, _, _, h, h' => by
    cases h
    cases h'
    exact agree_ofJson hfit.1
  | item :: rest, hfit, i + 1, value, datum, h, h' => by
    rw [Value.ofJsonItems, List.getElem?_cons_succ] at h
    rw [Datum.ofJsonItems, List.getElem?_cons_succ] at h'
    exact agree_ofJsonItems hfit.2 i value datum h h'

theorem agree_ofJsonMembers : ∀ {members : List (String × Json)},
    Json.IntegersFitMembers members → ∀ member ∈ members,
      Agree (Value.ofJson member.2) (Datum.ofJson member.2)
  | [], _, _, hmember => by cases hmember
  | (_, value) :: rest, hfit, member, hmember => by
    rcases List.mem_cons.1 hmember with rfl | hmember
    · exact agree_ofJson hfit.1
    · exact agree_ofJsonMembers hfit.2 member hmember

end

/-! ### The text of parameters -/

namespace Value

mutual

/-- Whether the finite doubles of a value are read back from their texts. -/
def DoublesReadBack : Value → Prop
  | number (.double x) => x.isNaN = false → x.isInf = false → Json.ReadsBack x
  | list items => ItemsReadBack items
  | record fields => FieldsReadBack fields
  | _ => True

/-- Whether the finite doubles of items are read back. -/
def ItemsReadBack : List Value → Prop
  | [] => True
  | item :: rest => DoublesReadBack item ∧ ItemsReadBack rest

/-- Whether the finite doubles of fields are read back. -/
def FieldsReadBack : List (String × Value) → Prop
  | [] => True
  | (_, value) :: rest => DoublesReadBack value ∧ FieldsReadBack rest

end

theorem writable_numberJson {k : Number} {json : Json} (h : numberJson k = some json)
    (hdoubles : DoublesReadBack (number k)) : json.Writable := by
  cases k with
  | int32 n =>
    cases h
    have hlow := n.le_toInt
    have hhigh := n.toInt_lt
    show _ ≤ n.toInt ∧ n.toInt < _
    omega
  | int64 n =>
    cases h
    have hlow := n.le_toInt
    have hhigh := n.toInt_lt
    show _ ≤ n.toInt ∧ n.toInt < _
    omega
  | word64 n =>
    cases h
    have hhigh := n.toNat_lt
    show _ ≤ (n.toNat : Int) ∧ (n.toNat : Int) < _
    omega
  | double x =>
    cases h
    split
    · trivial
    · rename_i hfinite
      rw [Bool.or_eq_true, not_or, Bool.not_eq_true, Bool.not_eq_true] at hfinite
      exact hdoubles hfinite.1 hfinite.2
  | wide n => cases h

mutual

/-- The JSON form of a value can be written. -/
theorem writable_toJson : ∀ {value : Value} {json : Json}, toJson value = some json →
    DoublesReadBack value → json.Writable
  | null, _, h, _ => by
    cases h
    trivial
  | undefined, _, h, _ => by
    cases h
    trivial
  | bool _, _, h, _ => by
    cases h
    trivial
  | number _, _, h, hdoubles => writable_numberJson h hdoubles
  | text _, _, h, _ => by
    cases h
    trivial
  | list _, _, h, hdoubles => by
    obtain ⟨found, hfound, rfl⟩ := Option.map_eq_some_iff.1 h
    exact writable_toJsonItems hfound hdoubles
  | record _, _, h, hdoubles => by
    obtain ⟨found, hfound, rfl⟩ := Option.map_eq_some_iff.1 h
    exact writable_toJsonFields hfound hdoubles

theorem writable_toJsonItems : ∀ {items : List Value} {found : List Json},
    toJsonItems items = some found → ItemsReadBack items → Json.WritableItems found
  | [], _, h, _ => by
    cases h
    trivial
  | _ :: _, _, h, hdoubles => by
    obtain ⟨first, hfirst, h⟩ := Option.bind_eq_some_iff.1 h
    obtain ⟨others, hothers, h⟩ := Option.bind_eq_some_iff.1 h
    cases h
    exact ⟨writable_toJson hfirst hdoubles.1, writable_toJsonItems hothers hdoubles.2⟩

theorem writable_toJsonFields : ∀ {fields : List (String × Value)} {found : List (String × Json)},
    toJsonFields fields = some found → FieldsReadBack fields → Json.WritableMembers found
  | [], _, h, _ => by
    cases h
    trivial
  | (_, _) :: _, _, h, hdoubles => by
    obtain ⟨first, hfirst, h⟩ := Option.bind_eq_some_iff.1 h
    obtain ⟨others, hothers, h⟩ := Option.bind_eq_some_iff.1 h
    cases h
    exact ⟨writable_toJson hfirst hdoubles.1, writable_toJsonFields hothers hdoubles.2⟩

end

end Value

/-- The request of a call with parameters is the text of their JSON form. -/
theorem Operation.request_of_parameters {operation : Operation} {specs : List Parameter.Spec}
    {request : Request} {parameters : Fields Value}
    (hrequest : operation.request specs = some (.ok request))
    (hparameters : operation.parameters? specs = some parameters) :
    ∃ json, (Value.record parameters).toJson = some json ∧ request = ⟨json.compact, true⟩ := by
  rcases request_cases hrequest with ⟨same, json, hsame, hjson, hrequest⟩ | ⟨input, rfl, -⟩
  · cases hsame.symm.trans hparameters
    exact ⟨json, hjson, hrequest⟩
  · cases hparameters

/-- The request of a call with a JSON payload is kept if both readers take it for JSON; then they agree on
what it says. -/
theorem Operation.request_of_executeJson {input : String} {specs : List Parameter.Spec}
    {request : Request} (h : (executeJson input).request specs = some (.ok request)) :
    request.text = input ∧ (Value.readJson? input).isSome = request.keeps ∧
      (Datum.readJson? input).isSome = request.keeps ∧
      ∀ value, Value.readJson? input = some value → ∃ datum,
        Datum.readJson? input = some datum ∧ Agree value datum := by
  have hrequest : request = ⟨input, (Value.readJson? input).isSome⟩ := by
    rcases request_cases h with ⟨_, _, hnone, -, -⟩ | ⟨same, hsame, hrequest⟩
    · cases hnone
    · cases hsame
      exact hrequest
  subst hrequest
  refine ⟨rfl, rfl, (isSome_readJson? input).symm, ?_⟩
  intro value hvalue
  obtain ⟨json, hjson, rfl⟩ := Option.map_eq_some_iff.1 hvalue
  refine ⟨Datum.ofJson json, ?_, agree_ofJson (Json.within_of_read? hjson).2⟩
  rw [Datum.readJson?, hjson]
  rfl

theorem Json.isSome_read?_compact {value : Json} (h : value.Writable) :
    (Datum.readJson? value.compact).isSome = true ↔ value.depth ≤ Json.maxDepth := by
  rw [Datum.readJson?, Option.isSome_map, Json.read?_compact h]
  split
  · exact iff_of_true rfl ‹_›
  · exact iff_of_false Bool.false_ne_true ‹_›

/-! ### Calls -/

/-- The answer of a call to what a script comes to. -/
def answerOf : Except Fault (Except ScriptError String) → Answer
  | .error fault => .error fault
  | .ok (.error err) => .ok (.error (.script err))
  | .ok (.ok text) => .ok (.ok (some text))

namespace BareEngine

variable {bare : BareEngine} {loaded : Loaded} {operation : Operation} {request : Request}

/-- A call that does not keep its result leaves the document alone. -/
theorem document_of_discarded (h : bare.loaded = some loaded) (host : Host)
    (hrequest : operation.request loaded.configuration.parameters = some (.ok request))
    (hkeeps : request.keeps = false) : (operation.performBare host bare).2.document = bare.document := by
  have hstill := still_run host request.text bare
  rw [performBare_of_request h host hrequest, BareSession.bind_apply, serve_ok, hkeeps]
  generalize run host request.text false bare = outcome at hstill
  obtain ⟨_ | result, after⟩ := outcome
  · exact congrArg document hstill
  · exact congrArg document hstill

variable {script : Script} (h : bare.loaded = some loaded) (hscript : bare.script = .ok script)
  (henclosed : script.Enclosed) (host : Host)
  (hrequest : operation.request loaded.configuration.parameters = some (.ok request))

include h hscript henclosed hrequest

/-- A text that is not JSON is answered as it is. -/
theorem performBare_of_unreadable (hnone : Datum.readJson? request.text = none) :
    operation.performBare host bare = (.ok (.ok (some request.text)),
      if request.keeps then bare.withDocument request.text else bare) := by
  rw [performBare_apply h hscript host hrequest, execute_of_script h hscript henclosed,
    Script.work_of_none hnone, entryResult_text]

/-- On JSON the answer is what the script makes of its value. -/
theorem answer_of_readable {value : Datum} (hvalue : Datum.readJson? request.text = some value) :
    (operation.performBare host bare).1 = answerOf
      (entryResult (script.proceed host loaded.document value) request.text).2 := by
  rw [performBare_apply h hscript host hrequest, execute_of_script h hscript henclosed,
    Script.work_of_some hvalue]
  rcases (entryResult (script.proceed host loaded.document value) request.text).2 with
    fault | err | text
  · rfl
  · rfl
  · rfl

end BareEngine

variable (host : Host) (files : Fields String)

/-- **What counts as JSON.** The reader of payloads takes the same texts for JSON as the script, and the
members of an object agree on both sides. The text of parameters is JSON unless they are nested too
deeply. A text that is not JSON is answered as it is and is not kept as the document, unless it is
the text of such parameters; for a text that is JSON, the script goes on with its value. Both hold of
every script, unless something that was taken into it stands outside of its function. -/
theorem readers_agree (before : List Operation) {loaded : Loaded} {operation : Operation}
    {request : Request}
    (hloaded : (Engine.transcript host files before {}).2.loaded = some loaded)
    (hrequest : operation.request loaded.configuration.parameters = some (.ok request)) :
    let engine := (Engine.transcript host files before {}).2
    let outcome := operation.perform.onHost host files engine
    (∀ input, operation = .executeJson input →
      request.text = input ∧ (Value.readJson? input).isSome = request.keeps ∧
        (Datum.readJson? input).isSome = request.keeps ∧
        ∀ value, Value.readJson? input = some value → ∃ datum,
          Datum.readJson? input = some datum ∧ Agree value datum) ∧
    (∀ parameters, operation.parameters? loaded.configuration.parameters = some parameters →
      (Value.record parameters).DoublesReadBack → ∃ json,
        (Value.record parameters).toJson = some json ∧ request = ⟨json.compact, true⟩ ∧
          ((Datum.readJson? request.text).isSome = true ↔ json.depth ≤ Json.maxDepth)) ∧
    (request.keeps = false → outcome.2.document = engine.document) ∧
    ∀ script, engine.bare.script = .ok script → script.Enclosed →
      (Datum.readJson? request.text = none → outcome.1 = .ok (.ok (some request.text)) ∧
        outcome.2.document = if request.keeps then request.text else engine.document) ∧
      ∀ value, Datum.readJson? request.text = some value →
        outcome.1 = answerOf
          (entryResult (script.proceed host loaded.document value) request.text).2 := by
  intro engine outcome
  have hu : engine.UpToDate := Engine.upToDate_transcript host files before
  obtain ⟨-, hbare⟩ := hu.perform host files operation
  have hdocument : outcome.2.document = (operation.performBare host engine.bare).2.document := by
    rw [hbare]
    rfl
  have hanswer : outcome.1 = (operation.performBare host engine.bare).1 := by
    rw [hbare]
  refine ⟨?_, ?_, ?_, ?_⟩
  · rintro input rfl
    exact Operation.request_of_executeJson hrequest
  · intro parameters hparameters hdoubles
    obtain ⟨json, hjson, rfl⟩ := Operation.request_of_parameters hrequest hparameters
    exact ⟨json, hjson, rfl, Json.isSome_read?_compact (Value.writable_toJson hjson hdoubles)⟩
  · intro hkeeps
    rw [hdocument]
    exact BareEngine.document_of_discarded hloaded host hrequest hkeeps
  · intro script hscript henclosed
    constructor
    · intro hnone
      rw [hanswer, hdocument,
        BareEngine.performBare_of_unreadable hloaded hscript henclosed host hrequest hnone]
      refine ⟨rfl, ?_⟩
      cases request.keeps with
      | true => exact BareEngine.document_withDocument hloaded request.text
      | false => rfl
    · intro value hvalue
      rw [hanswer]
      exact BareEngine.answer_of_readable hloaded hscript henclosed host hrequest hvalue

/-- A text that is not JSON is answered as it is and leaves the document alone. -/
theorem readers_agree_of_plain_text :
    ((Operation.executeJson "rain").perform.onHost {} []
        (Engine.transcript {} [] [.setConfiguration {}] {}).2).1 = .ok (.ok (some "rain")) ∧
      ((Operation.executeJson "rain").perform.onHost {} []
          (Engine.transcript {} [] [.setConfiguration {}] {}).2).2.document =
        (Engine.transcript {} [] [.setConfiguration {}] {}).2.document := by
  obtain ⟨-, -, hdocument, hcall⟩ := @readers_agree {} [] [.setConfiguration {}] ⟨{}, "\x7b\x7d"⟩
    (.executeJson "rain") ⟨"rain", false⟩ rfl rfl
  obtain ⟨answer, functions, houtline⟩ :=
    @exists_outline_of_isEmpty {} ⟨rfl, rfl, rfl⟩ false "\x7b\x7d"
  have hruns : (Engine.transcript {} [] [.setConfiguration {}] {}).2.bare.Runs {} "\x7b\x7d"
      ⟨[], [], [], answer, functions⟩ := ⟨rfl, houtline, fun rule hrule => by cases hrule⟩
  obtain ⟨script, hscript, henclosed, -⟩ := hruns.exists_script
  exact ⟨((hcall script hscript henclosed).1 rfl).1, hdocument rfl⟩

end Rulebook
