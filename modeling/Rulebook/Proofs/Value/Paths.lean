import Rulebook.Action

/-!
# Writing at a path

`Value.setPath` looks names up, replaces what is no record and puts values back on its way out. On a
record it cannot fail, and its result has a closed form, `Value.written`, in which a value that is no
record counts as the record without fields. Everything that a write keeps and changes is read off what
is found at a part of the path afterwards (`atPath_written_append`). A document that is no record is
another matter: `Action.set_writes_or_breaks_off`.

Values are read in two ways. `Value.atPath` goes through records only; `Value.follow` looks the names
up one by one as the actions do, so that a list answers with its first item and a text is a fault.
-/

namespace Rulebook

namespace Fields

/-- Of two values put under one name the second one is left. -/
theorem put_put {α : Type} (fields : Fields α) (name : String) (a b : α) :
    (fields.put name a).put name b = fields.put name b := by
  induction fields with
  | nil => simp [put]
  | cons field rest ih =>
    obtain ⟨key, value⟩ := field
    by_cases h : key = name
    · simp [put, h]
    · simp [put, h, ih]

end Fields

namespace Value

/-- What looking up the names of a path, one after the other, leads to. -/
def follow : Value → (path : List String) → Except Fault (Option Value)
  | value, [] => .ok (some value)
  | value, name :: rest => do
    match ← value.member name with
    | some found => found.follow rest
    | none => return none

@[simp] theorem follow_nil (value : Value) : value.follow [] = .ok (some value) := rfl

@[simp] theorem follow_record_cons (fields : Fields Value) (name : String) (rest : List String) :
    (record fields).follow (name :: rest) =
      match fields.get? name with
      | some found => found.follow rest
      | none => .ok none := by
  cases h : fields.get? name <;> simp [follow, member, h, bind, Except.bind, pure, Except.pure]

@[simp] theorem atPath_nil (value : Value) : value.atPath [] = some value := by
  cases value <;> rfl

@[simp] theorem atPath_record_cons (fields : Fields Value) (name : String) (rest : List String) :
    (record fields).atPath (name :: rest) = (fields.get? name).bind (atPath · rest) := rfl

theorem exists_of_isRecord {value : Value} (h : value.isRecord = true) :
    ∃ fields, value = record fields := by
  cases value with
  | record fields => exact ⟨fields, rfl⟩
  | _ => cases h

/-- Nothing stands at a path in a value that is no record. -/
theorem atPath_of_not_isRecord {value : Value} (h : value.isRecord = false) {path : List String}
    (hpath : path ≠ []) : value.atPath path = none := by
  cases path with
  | nil => contradiction
  | cons name rest => cases value <;> first | rfl | cases h

/-! ### The result of a write -/

/-- The value under a name, `null` if there is none. -/
def child (target : Value) (name : String) : Value := (Fields.get? target.asRecord name).getD null

/-- A value with `value` at a path. What stands in the way and is no record counts as the record
without fields. -/
def written (value : Value) : (target : Value) → (path : List String) → Value
  | _, [] => value
  | target, name :: rest =>
    record (target.asRecord.put name (written value (target.child name) rest))

@[simp] theorem written_nil (value target : Value) : value.written target [] = value := rfl

@[simp] theorem written_cons (value target : Value) (name : String) (rest : List String) :
    value.written target (name :: rest) =
      record (target.asRecord.put name (value.written (target.child name) rest)) := rfl

@[simp] theorem asRecord_record (fields : Fields Value) : (record fields).asRecord = fields := rfl

@[simp] theorem child_record (fields : Fields Value) (name : String) :
    (record fields).child name = (fields.get? name).getD null := rfl

/-- What is no record may as well be the record without fields. -/
theorem written_record_nil (value : Value) {target : Value} (h : target.isRecord = false)
    {path : List String} (hpath : path ≠ []) :
    value.written (record []) path = value.written target path := by
  have hempty : target.asRecord = [] := by cases target <;> first | rfl | cases h
  cases path with
  | nil => contradiction
  | cons name rest => simp [child, hempty]

/-- If a write into records does not fail, nor does one into what stands under a name: whatever it is,
the write goes on in a record. -/
theorem setPath_child (value : Value) {rest : List String}
    (h : ∀ fields : Fields Value,
      (record fields).setPath rest value = .ok (value.written (record fields) rest)) (found : Value) :
    (if rest.isEmpty || found.isRecord then found else record []).setPath rest value =
      .ok (value.written found rest) := by
  by_cases hrest : rest = []
  · subst hrest
    rfl
  · rw [List.isEmpty_eq_false_iff.2 hrest, Bool.false_or]
    cases hrecord : found.isRecord with
    | true =>
      obtain ⟨object, rfl⟩ := exists_of_isRecord hrecord
      exact h object
    | false => rw [if_neg Bool.false_ne_true, h, written_record_nil value hrecord hrest]

/-- A write into a record does not fail. -/
theorem setPath_record (value : Value) (fields : Fields Value) (path : List String) :
    (record fields).setPath path value = .ok (value.written (record fields) path) := by
  induction path generalizing fields with
  | nil => rfl
  | cons name rest ih =>
    change Except.map (fun child => record (fields.put name child))
      (setPath (if rest.isEmpty || _ then _ else _) rest value) = _
    rw [setPath_child value ih]
    rfl

/-- A write into a list leaves a record with one field, made of the first item. -/
theorem setPath_list (value : Value) (items : List Value) (name : String) (rest : List String) :
    (list items).setPath (name :: rest) value =
      .ok (record [(name, value.written (items.head?.getD null) rest)]) := by
  change Except.map (fun child => record (Fields.put [] name child))
    (setPath (if rest.isEmpty || _ then _ else _) rest value) = _
  rw [setPath_child value fun fields => setPath_record value fields rest]
  rfl

/-- Whether a value can be asked for a member. -/
def hasMembers : Value → Bool
  | record _ => true
  | list _ => true
  | _ => false

/-- A write into a value without members breaks off: the first name is looked up before the value is
replaced. -/
theorem setPath_of_not_hasMembers (value : Value) {target : Value} (h : target.hasMembers = false)
    (name : String) (rest : List String) :
    target.setPath (name :: rest) value = .error .noMembers := by
  cases target with
  | record fields => cases h
  | list items => cases h
  | _ => rfl

/-- A write at the same path as an earlier one does not fail. -/
theorem setPath_written (value value' : Value) (fields : Fields Value) (path : List String) :
    (value.written (record fields) path).setPath path value' =
      .ok (value'.written (value.written (record fields) path) path) := by
  cases path with
  | nil => rfl
  | cons name rest => exact setPath_record _ _ _

/-! ### What is found after a write -/

/-- The value at a path, `null` if there is none, is that of the rest of the path in a child. -/
theorem getD_atPath_cons (target : Value) (name : String) (rest : List String) :
    (target.atPath (name :: rest)).getD null = ((target.child name).atPath rest).getD null := by
  have hnull : (null.atPath rest).getD null = null := by cases rest <;> rfl
  cases target with
  | record fields =>
    cases h : Fields.get? fields name <;> simp [h, hnull]
  | _ => exact hnull.symm

/-- On its path, a write is found as the write of the rest of the path into what stood there. -/
theorem atPath_written_append (value target : Value) (outer rest : List String) :
    (value.written target (outer ++ rest)).atPath outer =
      some (value.written ((target.atPath outer).getD null) rest) := by
  induction outer generalizing target with
  | nil => simp
  | cons name outer ih =>
    rw [List.cons_append, written_cons, atPath_record_cons, Fields.get?_put, if_pos rfl,
      getD_atPath_cons]
    exact ih _

/-- The value that was written is found at its path. -/
theorem atPath_written_self (value target : Value) (path : List String) :
    (value.written target path).atPath path = some value := by
  have := atPath_written_append value target path []
  rwa [List.append_nil, written_nil] at this

/-- A write into a value with members leaves a record with the value at the path. -/
theorem exists_record_of_setPath (value : Value) {target : Value} (h : target.hasMembers = true)
    {path : List String} (hpath : path ≠ []) :
    ∃ fields : Fields Value, target.setPath path value = .ok (record fields) ∧
      (record fields).atPath path = some value := by
  obtain ⟨name, rest, rfl⟩ := List.exists_cons_of_ne_nil hpath
  cases target with
  | record fields =>
    refine ⟨_, setPath_record value fields (name :: rest), ?_⟩
    exact atPath_written_self value (record fields) (name :: rest)
  | list items =>
    refine ⟨_, setPath_list value items name rest, ?_⟩
    rw [atPath_record_cons, Fields.get?_cons, if_pos rfl]
    exact atPath_written_self value _ rest
  | _ => cases h

/-- What stands at a path is what its names lead to. -/
theorem follow_of_atPath {target found : Value} {path : List String}
    (h : target.atPath path = some found) : target.follow path = .ok (some found) := by
  induction path generalizing target with
  | nil => rw [← h, atPath_nil, follow_nil]
  | cons name rest ih =>
    cases target with
    | record fields =>
      obtain ⟨inner, hinner, hrest⟩ := Option.bind_eq_some_iff.1 h
      rw [follow_record_cons, hinner]
      exact ih hrest
    | _ => cases h

/-- A write into a record keeps the other fields of every record on its path. -/
theorem exists_object_written (value target : Value) {outer rest : List String} {name : String}
    {object : Fields Value} (h : target.atPath outer = some (record object)) :
    ∃ object', (value.written target (outer ++ name :: rest)).atPath outer = some (record object') ∧
      ∀ key ≠ name, Fields.get? object' key = Fields.get? object key := by
  refine ⟨_, atPath_written_append value target outer (name :: rest), fun key hkey => ?_⟩
  rw [h, Option.getD_some, asRecord_record, Fields.get?_put, if_neg (Ne.symm hkey)]

/-- A second write at the same path leaves nothing of the first one. -/
theorem written_written (value value' target : Value) (path : List String) :
    value'.written (value.written target path) path = value'.written target path := by
  induction path generalizing target with
  | nil => rfl
  | cons name rest ih => simp [Fields.get?_put, Fields.put_put, ih]

/-! ### Other paths -/

/-- Neither of two paths goes on where the other one ends. -/
def Apart (path other : List String) : Prop := ¬ path <+: other ∧ ¬ other <+: path

namespace Apart

variable {name name' : String} {path other : List String}

theorem ne_nil (h : Apart path other) : path ≠ [] ∧ other ≠ [] :=
  ⟨fun hp => h.1 (hp ▸ List.nil_prefix), fun ho => h.2 (ho ▸ List.nil_prefix)⟩

theorem of_cons (h : Apart (name :: path) (name :: other)) : Apart path other :=
  ⟨fun hp => h.1 (List.cons_prefix_cons.2 ⟨rfl, hp⟩), fun ho => h.2 (List.cons_prefix_cons.2 ⟨rfl, ho⟩)⟩

end Apart

/-- Whether two paths only have records in common: nothing that a write at the first one replaces on
its way is gone through by the second one. -/
def ThroughRecords (target : Value) (path other : List String) : Prop :=
  ∀ common, common <+: path → common <+: other →
    ∀ found, target.follow common = .ok (some found) → found.isRecord = true

theorem ThroughRecords.of_cons {fields : Fields Value} {name : String} {path other : List String}
    {found : Value} (h : ThroughRecords (record fields) (name :: path) (name :: other))
    (hfound : fields.get? name = some found) : ThroughRecords found path other := by
  intro common hpath hother inner hinner
  refine h (name :: common) (List.cons_prefix_cons.2 ⟨rfl, hpath⟩)
    (List.cons_prefix_cons.2 ⟨rfl, hother⟩) inner ?_
  rw [follow_record_cons, hfound]
  exact hinner

theorem throughRecords_record_nil (path other : List String) :
    ThroughRecords (record []) path other := by
  intro common _ _ found hfound
  cases common with
  | nil => cases hfound; rfl
  | cons name rest => cases hfound

/-- A write is not seen at another path. -/
theorem atPath_written_of_apart (value target : Value) {path other : List String}
    (h : Apart path other) :
    (value.written target path).atPath other = target.atPath other := by
  induction path generalizing target other with
  | nil => exact absurd rfl h.ne_nil.1
  | cons name rest ih =>
    obtain ⟨name', rest', rfl⟩ := List.exists_cons_of_ne_nil h.ne_nil.2
    have htarget : target.atPath (name' :: rest') =
        (Fields.get? target.asRecord name').bind (atPath · rest') := by
      cases target <;> rfl
    rw [written_cons, atPath_record_cons, Fields.get?_put, htarget]
    by_cases hname : name = name'
    · subst hname
      rw [if_pos rfl, Option.bind_some, ih _ h.of_cons, child]
      cases Fields.get? target.asRecord name with
      | some found => rfl
      | none => exact atPath_of_not_isRecord rfl h.of_cons.ne_nil.2
    · rw [if_neg hname]

/-- Looking up the names of another path leads to what it led to before the write, unless the write
replaced something on the way. -/
theorem follow_written_of_apart (value : Value) {fields : Fields Value} {path other : List String}
    (h : Apart path other) (hrecords : ThroughRecords (record fields) path other) :
    (value.written (record fields) path).follow other = (record fields).follow other := by
  induction path generalizing fields other with
  | nil => exact absurd rfl h.ne_nil.1
  | cons name rest ih =>
    obtain ⟨name', rest', rfl⟩ := List.exists_cons_of_ne_nil h.ne_nil.2
    rw [written_cons, asRecord_record, follow_record_cons, follow_record_cons, Fields.get?_put]
    by_cases hname : name = name'
    · subst hname
      rw [if_pos rfl, child_record]
      obtain ⟨hrest, hrest'⟩ := h.of_cons.ne_nil
      cases hfound : fields.get? name with
      | some found =>
        -- both paths go through `found`, so it is a record
        have hrecord : found.isRecord = true := by
          refine hrecords [name] ?_ ?_ found ?_
          · exact List.cons_prefix_cons.2 ⟨rfl, List.nil_prefix⟩
          · exact List.cons_prefix_cons.2 ⟨rfl, List.nil_prefix⟩
          · rw [follow_record_cons, hfound]
            rfl
        obtain ⟨object, rfl⟩ := exists_of_isRecord hrecord
        exact ih h.of_cons (hrecords.of_cons hfound)
      | none =>
        -- the write makes records of its own here, and the other path leads to nothing
        obtain ⟨first, others, rfl⟩ := List.exists_cons_of_ne_nil hrest'
        have hfresh := @ih [] _ h.of_cons (throughRecords_record_nil _ _)
        rw [@written_record_nil value null rfl _ hrest] at hfresh
        exact hfresh
    · rw [if_neg hname]

end Value

/-! ### The action that writes -/

namespace Action

open Value

theorem run_set {path : String} (h : ∀ name ∈ segments path, name ≠ "") (value document input : Value) :
    (set path value).run document input =
      { result := (document.setPath (segments path) value).map .ok } := by
  have hnone : (segments path).any String.isEmpty = false := by
    rw [List.any_eq_false]
    intro name hname
    simpa using h name hname
  simp only [set, hnone, Bool.false_eq_true, if_false]

theorem run_set_of_empty {path : String} (h : ∃ name ∈ segments path, name = "")
    (value document input : Value) : (set path value).run document input =
      { result := .ok (.error ⟨"path segments must not be empty"⟩) } := by
  have hany : (segments path).any String.isEmpty = true := by
    obtain ⟨name, hname, rfl⟩ := h
    exact List.any_eq_true.2 ⟨_, hname, rfl⟩
  simp only [set, hany, if_true]

/-- A dotted path has at least one name. -/
theorem segments_ne_nil (path : String) : segments path ≠ [] := by
  rw [segments, Ne, List.map_eq_nil_iff]
  exact List.splitOn_ne_nil _ _

/-- **The action that writes at a path obeys the laws of a lens.** On a record it succeeds, the value
is found at the path, other paths lead to what they led to before, the records on the path keep
their other fields, and of several writes at one path only the last one is left. A path with an empty
name is refused, and there is no next document. -/
theorem set_lens_laws (path : String) (value input : Value) :
    ((∀ name ∈ segments path, name ≠ "") → ∀ fields : Fields Value, ∃ next : Value,
      (set path value).run (record fields) input = { result := .ok (.ok next) } ∧
      next.atPath (segments path) = some value ∧
      next.follow (segments path) = .ok (some value) ∧
      (∀ other, Apart (segments path) other →
        next.atPath other = (record fields).atPath other ∧
        (ThroughRecords (record fields) (segments path) other →
          next.follow other = (record fields).follow other)) ∧
      (∀ outer name rest object, segments path = outer ++ name :: rest →
        (record fields).atPath outer = some (record object) →
        ∃ object', next.atPath outer = some (record object') ∧
          ∀ key ≠ name, Fields.get? object' key = Fields.get? object key) ∧
      (set path value).run next input = { result := .ok (.ok next) } ∧
      ∀ value', (set path value').run next input = (set path value').run (record fields) input) ∧
    ((∃ name ∈ segments path, name = "") → ∀ document, (set path value).run document input =
      { result := .ok (.error ⟨"path segments must not be empty"⟩) }) := by
  refine ⟨fun hnames fields => ?_, fun h document => run_set_of_empty h value document input⟩
  have hfirst (value : Value) : (set path value).run (record fields) input =
      { result := .ok (.ok (value.written (record fields) (segments path))) } := by
    rw [run_set hnames, setPath_record]
    rfl
  have hsecond (value' : Value) :
      (set path value').run (value.written (record fields) (segments path)) input =
        (set path value').run (record fields) input := by
    rw [hfirst, run_set hnames, setPath_written, written_written]
    rfl
  refine ⟨_, hfirst value, atPath_written_self _ _ _, follow_of_atPath (atPath_written_self _ _ _),
    fun other h => ⟨atPath_written_of_apart _ _ h, follow_written_of_apart _ h⟩, ?_, ?_, hsecond⟩
  · intro outer name rest object hpath hobject
    rw [hpath]
    exact exists_object_written _ _ hobject
  · rw [hsecond, hfirst]

/-- The city of a user whose address was a text; a path with an empty name is refused. -/
theorem set_lens_laws_of_city :
    let user : Value := record [("name", text "Ana"), ("address", text "unknown")]
    (∀ name ∈ segments "user.address.city", name ≠ "") ∧
    (∃ next : Value, (set "user.address.city" (text "Lisbon")).run (record [("user", user)]) null =
        { result := .ok (.ok next) } ∧
      next.follow ["user", "address", "city"] = .ok (some (text "Lisbon")) ∧
      next.follow ["user", "name"] = .ok (some (text "Ana")) ∧
      ∃ object, next.atPath ["user"] = some (record object) ∧
        Fields.get? object "name" = some (text "Ana")) ∧
    (∃ name ∈ segments "user..city", name = "") ∧
    (set "user..city" (text "Lisbon")).run user null =
      { result := .ok (.error ⟨"path segments must not be empty"⟩) } := by
  intro user
  have hcity : segments "user.address.city" = ["user", "address", "city"] := by decide +kernel
  have hempty : ∃ name ∈ segments "user..city", name = "" := by decide +kernel
  have hnames : ∀ name ∈ segments "user.address.city", name ≠ "" := by
    rw [hcity]
    decide
  obtain ⟨next, hrun, -, hfound, hothers, hkeeps, -⟩ :=
    (set_lens_laws "user.address.city" (text "Lisbon") null).1 hnames [("user", user)]
  refine ⟨hnames, ⟨next, hrun, hcity ▸ hfound, ?_, ?_⟩, hempty,
    (set_lens_laws "user..city" (text "Lisbon") null).2 hempty user⟩
  · refine (hothers ["user", "name"] ?_).2 ?_
    · rw [hcity]
      exact ⟨by decide, by decide⟩
    · intro common hpath hother found hfollow
      rw [hcity] at hpath
      -- the common parts are the empty path and the user
      rcases common with - | ⟨first, - | ⟨second, rest⟩⟩
      · cases hfollow
        rfl
      · obtain rfl := (List.cons_prefix_cons.1 hpath).1
        cases hfollow
        rfl
      · have h₁ := (List.cons_prefix_cons.1 (List.cons_prefix_cons.1 hpath).2).1
        have h₂ := (List.cons_prefix_cons.1 (List.cons_prefix_cons.1 hother).2).1
        exact absurd (h₁.symm.trans h₂) (by decide)
  · obtain ⟨object, hobject, hkeys⟩ := hkeeps ["user"] "address" ["city"] _ hcity rfl
    exact ⟨object, hobject, hkeys "name" (by decide)⟩

/-- **The action that writes at a path needs a document with members.** Into a record or a list it
writes, whatever stands on the path: the next document is a record, and the names of the path lead to
the value. Any other document breaks it off. -/
theorem set_writes_or_breaks_off {path : String} (h : ∀ name ∈ segments path, name ≠ "")
    (value document input : Value) :
    if document.hasMembers then
      ∃ fields : Fields Value,
        (set path value).run document input = { result := .ok (.ok (record fields)) } ∧
        (record fields).atPath (segments path) = some value ∧
        (record fields).follow (segments path) = .ok (some value)
    else (set path value).run document input = { result := .error .noMembers } := by
  rw [run_set h]
  split
  · rename_i hmembers
    obtain ⟨fields, hset, hfound⟩ := exists_record_of_setPath value hmembers (segments_ne_nil path)
    exact ⟨fields, by rw [hset]; rfl, hfound, follow_of_atPath hfound⟩
  · rename_i hmembers
    obtain ⟨name, rest, hpath⟩ := List.exists_cons_of_ne_nil (segments_ne_nil path)
    rw [hpath, setPath_of_not_hasMembers value (Bool.eq_false_iff.2 hmembers)]
    rfl

/-- A number on the path is replaced by a record, as is a list; at null there is nothing to look up. -/
theorem set_writes_or_breaks_off_at_null :
    (∀ name ∈ segments "a.b", name ≠ "") ∧
    (∃ fields : Fields Value,
      (set "a.b" (bool true)).run (record [("a", number (.int64 1))]) null =
        { result := .ok (.ok (record fields)) } ∧
      (record fields).follow ["a", "b"] = .ok (some (bool true))) ∧
    (∃ fields : Fields Value,
      (set "a.b" (bool true)).run (list [number (.int64 1)]) null =
        { result := .ok (.ok (record fields)) } ∧
      (record fields).follow ["a", "b"] = .ok (some (bool true))) ∧
    (set "a.b" (bool true)).run null null = { result := .error .noMembers } := by
  have hpath : segments "a.b" = ["a", "b"] := by decide +kernel
  have hnames : ∀ name ∈ segments "a.b", name ≠ "" := by
    rw [hpath]
    decide
  obtain ⟨fields, hrecord, -, hfound⟩ :=
    set_writes_or_breaks_off hnames (bool true) (record [("a", number (.int64 1))]) null
  obtain ⟨fields', hlist, -, hfound'⟩ :=
    set_writes_or_breaks_off hnames (bool true) (list [number (.int64 1)]) null
  exact ⟨hnames, ⟨fields, hrecord, hpath ▸ hfound⟩, ⟨fields', hlist, hpath ▸ hfound'⟩,
    set_writes_or_breaks_off hnames (bool true) null null⟩

end Action
end Rulebook
