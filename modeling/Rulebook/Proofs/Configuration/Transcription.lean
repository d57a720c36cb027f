import Mathlib
import Rulebook.Proofs.Configuration.Sections
import Rulebook.Proofs.Json.Written

/-!
# Configurations as they are written

A JSON text that is accepted as a configuration is read twice: everything but the document is taken
from a reading that leaves escapes as they are, the document from the text itself. Both readings see
the structure of the text (`Json.Written`). So the strings of the configuration are the insides of the
string literals at their places, and they are what the literals stand for as long as no escape is
among them: `configuration_as_written`.
-/

namespace Rulebook

open Json Json.Written

/-! ### The value of a structure -/

namespace Json.Written

mutual

/-- The value with strings and names as they are written. -/
def verbatim : Written → Value
  | null => .null
  | bool b => .bool b
  | numeral n => .number (Verbatim.ofNumeral n)
  | string inside => .text (String.ofList inside.chars)
  | array items => .list (verbatimItems items)
  | object members => .record (Fields.ofPairs (verbatimMembers members))

/-- The values of items. -/
def verbatimItems : List Written → List Value
  | [] => []
  | item :: rest => verbatim item :: verbatimItems rest

/-- The values of members under their names. -/
def verbatimMembers : List Member → List (String × Value)
  | [] => []
  | (name, _, value) :: rest => (String.ofList name.chars, verbatim value) :: verbatimMembers rest

end

theorem verbatimItems_eq_map (items : List Written) : verbatimItems items = items.map verbatim := by
  induction items with
  | nil => rfl
  | cons item rest ih => rw [verbatimItems, ih, List.map_cons]

theorem verbatimMembers_eq_map (members : List Member) : verbatimMembers members =
    members.map fun member => (String.ofList member.1.chars, member.2.2.verbatim) := by
  induction members with
  | nil => rfl
  | cons member rest ih =>
    obtain ⟨name, source, value⟩ := member
    rw [verbatimMembers, ih, List.map_cons]

end Json.Written

/-! ### The verbatim reader -/

theorem Json.splitString_append {s inside after : List Char}
    (h : splitString s = some (inside, after)) (tail : List Char) :
    splitString (s ++ tail) = some (inside, after ++ tail) := by
  induction s using splitString.induct generalizing inside with
  | case1 => cases h
  | case2 rest =>
    cases h
    rfl
  | case3 c rest ih =>
    obtain ⟨⟨found, left⟩, hfound, heq⟩ := Option.bind_eq_some_iff.1 h
    cases heq
    show (splitString (rest ++ tail)).bind _ = _
    rw [ih hfound]
    rfl
  | case4 c rest hquote hslash ih =>
    rw [splitString] at h
    · obtain ⟨⟨found, left⟩, hfound, heq⟩ := Option.bind_eq_some_iff.1 h
      cases heq
      rw [List.cons_append, splitString]
      · show (splitString (rest ++ tail)).bind _ = _
        rw [ih hfound]
        rfl
      · exact hquote
      · intro d rest' hc hrest
        cases rest with
        | nil => cases hfound
        | cons e rest => exact hslash e rest hc rfl
    · exact hquote
    · exact hslash

/-- Blanks before a character end there, whatever stands behind it. -/
theorem Json.skipSpace_append {s : List Char} (h : skipSpace s ≠ []) (tail : List Char) :
    skipSpace (s ++ tail) = skipSpace s ++ tail := by
  induction s with
  | nil => exact absurd rfl h
  | cons d s ih =>
    by_cases hd : isSpace d
    · have hskip (s : List Char) : skipSpace (d :: s) = skipSpace s :=
        List.dropWhile_cons_of_pos hd
      rw [hskip] at h
      rw [List.cons_append, hskip, hskip, ih h]
    · rw [Bool.not_eq_true] at hd
      rw [List.cons_append, skipSpace_cons hd, skipSpace_cons hd, List.cons_append]

theorem Json.skipSpace_append_cons {c : Char} {s rest : List Char} (h : skipSpace s = c :: rest)
    (tail : List Char) : skipSpace (s ++ tail) = c :: (rest ++ tail) := by
  rw [skipSpace_append (h ▸ List.cons_ne_nil c rest), h, List.cons_append]

namespace Verbatim

open Written

variable {s after tail rest : List Char}

/-- No value stands in an empty text. -/
theorem ne_nil_of_readValue {fuel : Nat} {found : Value × List Char}
    (h : readValue fuel s = some found) : s ≠ [] := by
  rintro rfl
  cases fuel <;> cases h

theorem ne_nil_of_readItems {fuel : Nat} {found : List Value × List Char}
    (h : readItems fuel s = some found) : s ≠ [] := by
  rintro rfl
  cases fuel with
  | zero => cases h
  | succ fuel =>
    obtain ⟨item, hitem, -⟩ := Option.bind_eq_some_iff.1 h
    exact ne_nil_of_readValue hitem rfl

theorem ne_nil_of_readFields {fuel : Nat} {found : List (String × Value) × List Char}
    (h : readFields fuel s = some found) : s ≠ [] := by
  rintro rfl
  cases fuel <;> cases h

theorem exists_of_readString {text : String} (h : readString s = some (text, after)) :
    ∃ inside, text = String.ofList inside ∧ splitString s = some (inside, after) := by
  obtain ⟨⟨inside, left⟩, hsplit, h⟩ := Option.bind_eq_some_iff.1 h
  obtain ⟨-, h⟩ := Option.ite_none_right_eq_some.1 h
  cases h
  exact ⟨inside, rfl, hsplit⟩

/-- What is read with some fuel is the value of the structure, whatever stands behind it. -/
structure Transcribes (fuel : Nat) : Prop where
  value : ∀ {s after tail rest : List Char} {value : Value} {tree : Written}, Ends tail →
    readValue fuel s = some (value, after) → Spells (s ++ tail) tree rest →
      value = tree.verbatim ∧ rest = after ++ tail
  items : ∀ {s after tail rest : List Char} {items : List Value} {trees : List Written}, Ends tail →
    readItems fuel s = some (items, after) → SpellsItems (s ++ tail) trees rest →
      items = verbatimItems trees ∧ rest = after ++ tail
  fields : ∀ {s after tail rest : List Char} {fields : List (String × Value)}
    {members : List Member}, Ends tail →
    readFields fuel s = some (fields, after) → SpellsMembers (s ++ tail) members rest →
      fields = verbatimMembers members ∧ rest = after ++ tail

theorem not_closing_of_open {c : Char} {r : List Char} (hne : skipSpace r ≠ [])
    (hopen : ∀ after, skipSpace r = c :: after → False) : skipSpace (r ++ tail) ≠ c :: rest := by
  intro hend
  rw [skipSpace_append hne] at hend
  cases hskip : skipSpace r with
  | nil => exact hne hskip
  | cons d r' =>
    rw [hskip] at hend
    cases hend
    exact hopen _ hskip

/-- By the grammar an object begins with a brace. -/
theorem exists_brace_of_spells {r : List Char} {tree : Written} (h : afterOpening s = some r)
    (hspells : Spells (s ++ tail) tree rest) : ∃ r, s = '\x7b' :: r := by
  unfold afterOpening at h
  split at h
  · exact ⟨_, rfl⟩
  · cases hspells with
    | numeral split => exact absurd split (Spells.ne_numeral rfl)
  · cases h

namespace Transcribes

variable {fuel : Nat}

theorem value_succ (h : Transcribes fuel) {value : Value} {tree : Written} (htail : Ends tail)
    (hread : readValue (fuel + 1) s = some (value, after)) (hspells : Spells (s ++ tail) tree rest) :
    value = tree.verbatim ∧ rest = after ++ tail := by
  rw [readValue.eq_def] at hread
  dsimp only at hread
  split at hread
  · cases hread
    obtain ⟨rfl, heq⟩ := hspells.eq_null
    cases heq
    exact ⟨rfl, rfl⟩
  · cases hread
    obtain ⟨rfl, heq⟩ := hspells.eq_true
    cases heq
    exact ⟨rfl, rfl⟩
  · cases hread
    obtain ⟨rfl, heq⟩ := hspells.eq_false
    cases heq
    exact ⟨rfl, rfl⟩
  · obtain ⟨⟨text, left⟩, htext, hread⟩ := Option.bind_eq_some_iff.1 hread
    cases hread
    obtain ⟨inside, rfl, hsplit⟩ := exists_of_readString htext
    rw [List.cons_append] at hspells
    obtain ⟨inside', rfl, hsplit'⟩ := hspells.exists_string
    rw [splitString_append hsplit] at hsplit'
    cases hsplit'
    exact ⟨rfl, rfl⟩
  · -- a list is empty for the one reader if and only if it is for the other
    rw [List.cons_append] at hspells
    split at hread
    · rename_i hclosed
      cases hread
      rcases hspells.exists_array with ⟨rfl, hend⟩ | ⟨trees, rfl, htrees⟩
      · rw [skipSpace_append_cons hclosed] at hend
        cases hend
        exact ⟨rfl, rfl⟩
      · rw [skipSpace_append_cons hclosed] at htrees
        exact absurd htrees SpellsItems.not_closing
    · rename_i hopen
      obtain ⟨⟨items, left⟩, hitems, hread⟩ := Option.bind_eq_some_iff.1 hread
      cases hread
      have hskip := skipSpace_append (ne_nil_of_readItems hitems) tail
      rcases hspells.exists_array with ⟨rfl, hend⟩ | ⟨trees, rfl, htrees⟩
      · exact absurd hend (not_closing_of_open (ne_nil_of_readItems hitems) hopen)
      · rw [hskip] at htrees
        obtain ⟨rfl, rfl⟩ := h.items htail hitems htrees
        exact ⟨rfl, rfl⟩
  · split at hread
    · rename_i hopening
      -- the verbatim reader takes two openings for an object, JSON has one
      obtain ⟨r, rfl⟩ := exists_brace_of_spells hopening hspells
      cases hopening
      rw [List.cons_append] at hspells
      split at hread
      · rename_i hclosed
        cases hread
        rcases hspells.exists_object with ⟨rfl, hend⟩ | ⟨members, rfl, hmembers⟩
        · rw [skipSpace_append_cons hclosed] at hend
          cases hend
          exact ⟨rfl, rfl⟩
        · rw [skipSpace_append_cons hclosed] at hmembers
          exact absurd hmembers SpellsMembers.not_closing
      · rename_i hopen
        obtain ⟨⟨fields, left⟩, hfields, hread⟩ := Option.bind_eq_some_iff.1 hread
        cases hread
        have hskip := skipSpace_append (ne_nil_of_readFields hfields) tail
        rcases hspells.exists_object with ⟨rfl, hend⟩ | ⟨members, rfl, hmembers⟩
        · exact absurd hend (not_closing_of_open (ne_nil_of_readFields hfields) hopen)
        · rw [hskip] at hmembers
          obtain ⟨rfl, rfl⟩ := h.fields htail hfields hmembers
          exact ⟨rfl, rfl⟩
    · obtain ⟨⟨n, left⟩, hsplit, hread⟩ := Option.bind_eq_some_iff.1 hread
      cases hread
      obtain ⟨rfl, rfl⟩ := hspells.eq_numeral (splitNumeral_append htail hsplit)
      exact ⟨rfl, rfl⟩

theorem items_succ (h : Transcribes fuel) {items : List Value} {trees : List Written}
    (htail : Ends tail) (hread : readItems (fuel + 1) s = some (items, after))
    (hspells : SpellsItems (s ++ tail) trees rest) :
    items = verbatimItems trees ∧ rest = after ++ tail := by
  rw [readItems] at hread
  obtain ⟨⟨item, left⟩, hitem, hread⟩ := Option.bind_eq_some_iff.1 hread
  dsimp only at hread
  cases hspells with
  | last spells closed =>
    obtain ⟨rfl, rfl⟩ := h.value htail hitem spells
    split at hread
    · rename_i hcomma
      rw [skipSpace_append_cons hcomma] at closed
      cases closed
    · rename_i hclosed
      cases hread
      rw [skipSpace_append_cons hclosed] at closed
      cases closed
      exact ⟨rfl, rfl⟩
    · cases hread
  | more spells comma others =>
    obtain ⟨rfl, rfl⟩ := h.value htail hitem spells
    split at hread
    · rename_i hcomma
      obtain ⟨⟨more, left⟩, hmore, hread⟩ := Option.bind_eq_some_iff.1 hread
      cases hread
      rw [skipSpace_append_cons hcomma] at comma
      cases comma
      rw [skipSpace_append (ne_nil_of_readItems hmore)] at others
      obtain ⟨rfl, rfl⟩ := h.items htail hmore others
      exact ⟨rfl, rfl⟩
    · rename_i hclosed
      rw [skipSpace_append_cons hclosed] at comma
      cases comma
    · cases hread

theorem member (h : Transcribes fuel) {colon next left inside : List Char} {value : Value}
    {member : Member} (htail : Ends tail) (hsplit : splitString s = some (inside, colon))
    (hmark : skipSpace colon = ':' :: next)
    (hread : readValue fuel (skipSpace next) = some (value, left))
    (hspells : SpellsMember ('"' :: (s ++ tail)) member rest) :
    (String.ofList inside, value) = (String.ofList member.1.chars, member.2.2.verbatim) ∧
      rest = left ++ tail := by
  cases hspells with
  | mk split mark spells written =>
    rw [splitString_append hsplit] at split
    cases split
    rw [skipSpace_append_cons hmark] at mark
    cases mark
    rw [skipSpace_append (ne_nil_of_readValue hread)] at spells
    obtain ⟨rfl, rfl⟩ := h.value htail hread spells
    exact ⟨rfl, rfl⟩

theorem fields_succ (h : Transcribes fuel) {fields : List (String × Value)} {members : List Member}
    (htail : Ends tail) (hread : readFields (fuel + 1) s = some (fields, after))
    (hspells : SpellsMembers (s ++ tail) members rest) :
    fields = verbatimMembers members ∧ rest = after ++ tail := by
  rw [readFields.eq_def] at hread
  dsimp only at hread
  split at hread
  · obtain ⟨⟨name, colon⟩, hname, hread⟩ := Option.bind_eq_some_iff.1 hread
    obtain ⟨inside, rfl, hsplit⟩ := exists_of_readString hname
    dsimp only at hread
    split at hread
    · rename_i hmark
      obtain ⟨⟨value, left⟩, hvalue, hread⟩ := Option.bind_eq_some_iff.1 hread
      dsimp only at hread
      rw [List.cons_append] at hspells
      cases hspells with
      | last spells closed =>
        obtain ⟨hfield, rfl⟩ := h.member htail hsplit hmark hvalue spells
        split at hread
        · rename_i hcomma
          rw [skipSpace_append_cons hcomma] at closed
          cases closed
        · rename_i hclosed
          cases hread
          rw [skipSpace_append_cons hclosed] at closed
          cases closed
          rw [hfield]
          exact ⟨rfl, rfl⟩
        · cases hread
      | more spells comma others =>
        obtain ⟨hfield, rfl⟩ := h.member htail hsplit hmark hvalue spells
        split at hread
        · rename_i hcomma
          obtain ⟨⟨more, left⟩, hmore, hread⟩ := Option.bind_eq_some_iff.1 hread
          cases hread
          rw [skipSpace_append_cons hcomma] at comma
          cases comma
          rw [skipSpace_append (ne_nil_of_readFields hmore)] at others
          obtain ⟨rfl, rfl⟩ := h.fields htail hmore others
          rw [hfield]
          exact ⟨rfl, rfl⟩
        · rename_i hclosed
          rw [skipSpace_append_cons hclosed] at comma
          cases comma
        · cases hread
    · cases hread
  · cases hread

end Transcribes

theorem transcribes (fuel : Nat) : Transcribes fuel := by
  induction fuel with
  | zero =>
    constructor <;>
    · intro s after tail rest found tree htail h
      cases h
  | succ fuel ih => exact ⟨ih.value_succ, ih.items_succ, ih.fields_succ⟩

end Verbatim

/-! ### Blanks around a text -/

/-- No value begins with a blank. -/
theorem Json.Spells.exists_cons {s after : List Char} {tree : Written} (h : Spells s tree after) :
    ∃ c rest, s = c :: rest ∧ Text.isBlank c = false := by
  cases h with
  | numeral split =>
    obtain ⟨c, rest, rfl, hc⟩ := exists_cons_of_splitNumeral split
    exact ⟨c, rest, rfl, isBlank_of_isNumeralPart hc⟩
  | _ => exact ⟨_, _, rfl, by decide⟩

theorem Json.isBlank_of_isSpace {c : Char} (h : isSpace c = true) : Text.isBlank c = true := by
  simp only [isSpace, Bool.or_eq_true, beq_iff_eq] at h
  rcases h with ((rfl | rfl) | rfl) | rfl <;> decide

/-- Before a character that is not blank there are no blanks but those of JSON. -/
theorem Text.trimLeft_of_skipSpace {c : Char} {s rest : List Char}
    (h : skipSpace s = c :: rest) (hc : Text.isBlank c = false) :
    Text.trimLeft s = skipSpace s := by
  induction s with
  | nil => cases h
  | cons d s ih =>
    by_cases hd : isSpace d
    · have hskip : skipSpace (d :: s) = skipSpace s := List.dropWhile_cons_of_pos hd
      have htrim : Text.trimLeft (d :: s) = Text.trimLeft s :=
        List.dropWhile_cons_of_pos (isBlank_of_isSpace hd)
      rw [hskip] at h ⊢
      rw [htrim, ih h]
    · rw [Bool.not_eq_true] at hd
      rw [skipSpace_cons hd] at h ⊢
      cases h
      exact List.dropWhile_cons_of_neg (by rw [hc]; exact Bool.false_ne_true)

/-- What is cut off from the end of a text does not prolong a numeral. -/
theorem Text.exists_trimRight (s : List Char) : ∃ tail, s = Text.trimRight s ++ tail ∧ Ends tail := by
  refine ⟨(s.reverse.takeWhile Text.isBlank).reverse, ?_, ?_⟩
  · rw [Text.trimRight, ← List.reverse_append, List.takeWhile_append_dropWhile, List.reverse_reverse]
  · cases htail : (s.reverse.takeWhile Text.isBlank).reverse with
    | nil => rfl
    | cons c tail =>
      refine ends_cons (Bool.eq_false_iff.2 fun hpart => ?_) tail
      have hmem : c ∈ s.reverse.takeWhile Text.isBlank := by
        rw [← List.mem_reverse, htail]
        exact List.mem_cons_self
      have hblank : Text.isBlank c = true := List.all_eq_true.1 List.all_takeWhile c hmem
      rw [isBlank_of_isNumeralPart hpart] at hblank
      cases hblank

/-- The verbatim reader reads the value of the structure of a text. -/
theorem Verbatim.eq_verbatim_of_read? {text : String} {value : Value} {tree : Written}
    (h : read? text = some value) (hdenotes : Denotes text tree) : value = tree.verbatim := by
  obtain ⟨⟨found, left⟩, hread, h⟩ := Option.bind_eq_some_iff.1 h
  obtain ⟨hleft, h⟩ := Option.ite_none_right_eq_some.1 h
  cases h
  obtain ⟨rest, hspells, -⟩ := hdenotes
  obtain ⟨c, tail, hcons, hc⟩ := hspells.exists_cons
  obtain ⟨tail, htail, hends⟩ := Text.exists_trimRight (Text.trimLeft text.toList)
  rw [← Text.trimLeft_of_skipSpace hcons hc, htail] at hspells
  exact ((transcribes _).value hends hread hspells).1

/-! ### Places in a structure -/

/-- In a list of pairs the last one of a name counts. -/
theorem Fields.get?_ofPairs {α : Type} (pairs : List (String × α)) (name : String) :
    (Fields.ofPairs pairs).get? name = (pairs.reverse.find? (·.1 == name)).map (·.2) := by
  induction pairs using List.reverseRecOn with
  | nil => rfl
  | append_singleton pairs pair ih =>
    rw [Fields.ofPairs, List.foldl_append, List.reverse_append]
    show Fields.get? (Fields.put (Fields.ofPairs pairs) pair.1 pair.2) name = _
    rw [Fields.get?_put, ih, List.reverse_singleton, List.singleton_append, List.find?_cons]
    by_cases hname : pair.1 = name
    · rw [if_pos hname, beq_iff_eq.2 hname]
      rfl
    · rw [if_neg hname, beq_eq_false_iff_ne.2 hname]

namespace Json.Written

variable (reading : List Char → Option (List Char))

/-- The value of the last member of a name. The names are read as `reading` says. -/
def member? (name : String) (tree : Written) : Option Written :=
  (tree.members.reverse.find? (Member.isNamed reading name)).map (·.2.2)

/-- The items of an array; none if there is no array. -/
def itemsOf : Option Written → List Written
  | some (array items) => items
  | _ => []

/-- The text of a string. -/
def string? : Written → Option String
  | string inside => (reading inside.chars).map String.ofList
  | _ => none

/-- The text of a condition, which may be a truth value. -/
def condition? : Written → Option String
  | bool b => some (if b then "true" else "false")
  | tree => tree.string? reading

/-- The statements of a body: those of an array, or the only one. -/
def body : Option Written → List Written
  | some (array items) => items
  | some tree => [tree]
  | none => []

/-- Whether a rule has the strings of a structure. -/
structure GivesRule (tree : Written) (rule : Rule) : Prop where
  condition : (tree.member? reading "condition").bind (condition? reading) = some rule.condition
  name : (tree.member? reading "name").bind (string? reading) = rule.name
  body : (body (tree.member? reading "body")).map (string? reading) = rule.body.map some
  actions : (itemsOf (tree.member? reading "executionActions")).map (string? reading) =
    rule.actions.map some

/-- Whether a declaration has the strings of a structure. -/
structure GivesSpec (tree : Written) (spec : Parameter.Spec) : Prop where
  name : (tree.member? reading "name").bind (string? reading) = some spec.name
  pattern : (tree.member? reading "pattern").bind (string? reading) = spec.pattern

/-- Whether a configuration has the strings of a structure, each at its place. -/
structure Gives (tree : Written) (configuration : Configuration) : Prop where
  before : (itemsOf (tree.member? reading "preExecution")).map (string? reading) =
    configuration.before.map some
  rules : List.Forall₂ (GivesRule reading) (itemsOf (tree.member? reading "rules"))
    configuration.rules
  after : (itemsOf (tree.member? reading "postExecution")).map (string? reading) =
    configuration.after.map some
  parameters : List.Forall₂ (GivesSpec reading) (itemsOf (tree.member? reading "inputValidation"))
    configuration.parameters

end Json.Written

namespace Json.Written

/-- A field of the verbatim value is the member of that name as written. -/
theorem get?_verbatim (members : List Member) (name : String) :
    (Fields.ofPairs (verbatimMembers members)).get? name =
      ((object members).member? some name).map verbatim := by
  rw [Fields.get?_ofPairs, verbatimMembers_eq_map, ← List.map_reverse, List.find?_map]
  have hnamed : ((fun pair : String × Value => pair.1 == name) ∘
      fun member : Member => (String.ofList member.1.chars, member.2.2.verbatim)) =
      Member.isNamed some name := by
    funext member
    rw [Function.comp_apply, Member.isNamed, Bool.eq_iff_iff, beq_iff_eq, beq_iff_eq,
      Option.some_inj, ← String.toList_inj, String.toList_ofList]
  rw [hnamed, member?, Option.map_map, Option.map_map]
  rfl

/-- The value is a record if and only if the structure is an object. -/
theorem exists_of_verbatim_eq_record {tree : Written} {fields : Fields Value}
    (h : tree.verbatim = .record fields) : (∃ members, tree = .object members) ∧
      ∀ name, fields.get? name = (tree.member? some name).map verbatim := by
  cases tree with
  | object members =>
    cases h
    exact ⟨⟨members, rfl⟩, get?_verbatim members⟩
  | _ => cases h

/-- The text of a value that is one. -/
def textOf : Value → Option String
  | .text s => some s
  | _ => none

theorem textOf_verbatim (tree : Written) : textOf tree.verbatim = tree.string? some := by
  cases tree <;> rfl

theorem map_textOf_verbatim (trees : List Written) :
    (trees.map verbatim).map textOf = trees.map (string? some) := by
  rw [List.map_map]
  exact List.map_congr_left fun tree _ => textOf_verbatim tree

theorem map_textOf_of_textsOf? {values : List Value} {texts : List String}
    (h : textsOf? values = some texts) : values.map textOf = texts.map some := by
  induction values generalizing texts with
  | nil =>
    cases h
    rfl
  | cons value rest ih =>
    cases value with
    | text s =>
      obtain ⟨others, hothers, rfl⟩ := Option.map_eq_some_iff.1 h
      rw [List.map_cons, List.map_cons, ih hothers]
      rfl
    | _ => cases h

section

variable {found : Option Written}

theorem condition_of_readCondition {condition : String}
    (h : Rule.readCondition (found.map verbatim) = .ok condition) :
    found.bind (condition? some) = some condition := by
  cases found with
  | none => cases h
  | some tree =>
    cases tree with
    | bool b => exact congrArg some (Except.ok.inj h)
    | string inside => exact congrArg some (Except.ok.inj h)
    | _ => cases h

theorem name_of_readName {name : Option String}
    (h : Rule.readName (found.map verbatim) = .ok name) : found.bind (string? some) = name := by
  cases found with
  | none => exact Except.ok.inj h
  | some tree =>
    cases tree with
    | string inside => exact Except.ok.inj h
    | _ => cases h

theorem body_of_readBody {statements : List String}
    (h : Rule.readBody (found.map verbatim) = .ok statements) :
    (body found).map (string? some) = statements.map some := by
  cases found with
  | none =>
    cases h
    rfl
  | some tree =>
    cases tree with
    | string inside =>
      cases h
      rfl
    | array items =>
      rw [Option.map_some, verbatim, Rule.readBody] at h
      split at h
      · rename_i texts htexts
        cases h
        rw [verbatimItems_eq_map] at htexts
        rw [← map_textOf_of_textsOf? htexts, map_textOf_verbatim]
        rfl
      · cases h
    | _ => cases h

theorem actions_of_readActions {actions : List String}
    (h : Rule.readActions (found.map verbatim) = .ok actions) :
    (itemsOf found).map (string? some) = actions.map some := by
  cases found with
  | none =>
    cases h
    rfl
  | some tree =>
    cases tree with
    | array items =>
      rw [Option.map_some, verbatim, Rule.readActions] at h
      split at h
      · rename_i texts htexts
        cases h
        rw [verbatimItems_eq_map] at htexts
        rw [← map_textOf_of_textsOf? htexts, map_textOf_verbatim]
        rfl
      · cases h
    | _ => cases h

theorem name_of_readSpecName {name : String}
    (h : Parameter.Spec.readName (found.map verbatim) = .ok name) :
    found.bind (string? some) = some name := by
  cases found with
  | none => cases h
  | some tree =>
    cases tree with
    | string inside => exact congrArg some (Except.ok.inj h)
    | _ => cases h

theorem pattern_of_readPattern {pattern : Option String}
    (h : Parameter.Spec.readPattern (found.map verbatim) = .ok pattern) :
    found.bind (string? some) = pattern := by
  cases found with
  | none => exact Except.ok.inj h
  | some tree =>
    cases tree with
    | string inside =>
      change (if _ then Except.ok _ else Except.error _) = _ at h
      split at h
      · exact Except.ok.inj h
      · cases h
    | _ => cases h

end

section

variable {tree : Written} {fields : Fields Value}

/-- The items of a section are the items under its name. -/
theorem itemsOf_of_sections
    (hget : ∀ name, fields.get? name = (tree.member? some name).map verbatim) {name : String}
    {values : List Value} (h : Configuration.itemsOf fields name = .ok values) :
    values = (itemsOf (tree.member? some name)).map verbatim := by
  unfold Configuration.itemsOf at h
  rw [hget] at h
  generalize tree.member? some name = found at h ⊢
  cases found with
  | none => exact (Except.ok.inj h).symm
  | some found =>
    cases found with
    | null => exact (Except.ok.inj h).symm
    | array items => exact (Except.ok.inj h).symm.trans (verbatimItems_eq_map items)
    | _ => cases h

theorem statements_of_sections
    (hget : ∀ name, fields.get? name = (tree.member? some name).map verbatim) {name : String}
    {texts : List String} (h : Configuration.statements fields name = .ok texts) :
    (itemsOf (tree.member? some name)).map (string? some) = texts.map some := by
  obtain ⟨values, hvalues, h⟩ := exists_of_bind_eq_ok h
  rw [← map_textOf_verbatim, ← itemsOf_of_sections hget hvalues,
    Configuration.eq_map_of_readStatements h, List.map_map]
  rfl

/-- The strings of a rule are those at their places. -/
theorem givesRule_of_ofValue {rule : Rule} (h : Rule.ofValue tree.verbatim = .ok rule) :
    tree.GivesRule some rule := by
  cases hvalue : tree.verbatim with
  | record fields =>
    obtain ⟨-, hget⟩ := exists_of_verbatim_eq_record hvalue
    rw [hvalue] at h
    obtain ⟨condition, hcondition, h⟩ := exists_of_bind_eq_ok h
    obtain ⟨name, hname, h⟩ := exists_of_bind_eq_ok h
    obtain ⟨body, hbody, h⟩ := exists_of_bind_eq_ok h
    obtain ⟨actions, hactions, h⟩ := exists_of_bind_eq_ok h
    cases h
    rw [hget] at hcondition hname hbody hactions
    exact ⟨condition_of_readCondition hcondition, name_of_readName hname, body_of_readBody hbody,
      actions_of_readActions hactions⟩
  | _ =>
    rw [hvalue] at h
    cases h

/-- The strings of a declaration are those at their places. -/
theorem givesSpec_of_ofValue {spec : Parameter.Spec}
    (h : Parameter.Spec.ofValue tree.verbatim = .ok (.ok spec)) : tree.GivesSpec some spec := by
  obtain ⟨fields, hfields, hparts⟩ := Parameter.Spec.exists_of_ofValue h
  obtain ⟨-, hget⟩ := exists_of_verbatim_eq_record hfields
  exact ⟨name_of_readSpecName (hget "name" ▸ hparts.name),
    pattern_of_readPattern (hget "pattern" ▸ hparts.pattern)⟩

/-- The strings of a configuration are those at their places. -/
theorem gives_of_sections {configuration : Configuration}
    (hget : ∀ name, fields.get? name = (tree.member? some name).map verbatim)
    (h : Configuration.Sections fields configuration) : tree.Gives some configuration := by
  obtain ⟨rules, hrules, hread⟩ := h.rules
  obtain ⟨specs, hspecs, hread'⟩ := h.parameters
  rw [itemsOf_of_sections hget hrules, List.forall₂_map_left_iff] at hread
  rw [itemsOf_of_sections hget hspecs, List.forall₂_map_left_iff] at hread'
  exact ⟨statements_of_sections hget h.before, hread.imp fun _ _ => givesRule_of_ofValue,
    statements_of_sections hget h.after, hread'.imp fun _ _ => givesSpec_of_ofValue⟩

end

/-! ### Escapes -/

/-- Whether no name of the members of an object has an escape. -/
def PlainNames (tree : Written) : Prop := ∀ member ∈ tree.members, '\\' ∉ member.1.chars

/-- Whether no escape is among the names that lead to the strings of a configuration. -/
structure PlainPlaces (tree : Written) : Prop where
  sections : tree.PlainNames
  rules : ∀ item ∈ itemsOf (tree.member? some "rules"), item.PlainNames
  parameters : ∀ item ∈ itemsOf (tree.member? some "inputValidation"), item.PlainNames

/-- Where names have no escapes, it does not matter whether they are decoded. -/
theorem PlainNames.member?_decode {tree : Written} (h : tree.PlainNames) (name : String) :
    tree.member? decode name = tree.member? some name := by
  have hnamed : ∀ member ∈ tree.members.reverse,
      Member.isNamed decode name member = Member.isNamed some name member := by
    intro member hmember
    rw [Member.isNamed, member.1.decode_eq_iff.2 (h member (List.mem_reverse.1 hmember))]
    rfl
  rw [member?, member?, ← List.head?_filter, List.filter_congr hnamed, List.head?_filter]

end Json.Written

/-- Whether a text has no backslash. -/
def Plain (s : String) : Prop := '\\' ∉ s.toList

namespace Json.Written

variable {tree : Written} {s : String}

theorem string?_decode_iff (h : tree.string? some = some s) :
    tree.string? decode = some s ↔ Plain s := by
  cases tree with
  | string inside =>
    cases h
    rw [Plain, String.toList_ofList, ← inside.decode_eq_iff]
    show (decode inside.chars).map String.ofList = some (String.ofList inside.chars) ↔ _
    constructor
    · intro hmap
      obtain ⟨decoded, hdecoded, heq⟩ := Option.map_eq_some_iff.1 hmap
      rw [hdecoded, String.ofList_injective heq]
    · intro hdecode
      rw [hdecode]
      rfl
  | _ => cases h

theorem condition?_decode_iff (h : tree.condition? some = some s) :
    tree.condition? decode = some s ↔ Plain s := by
  cases tree with
  | bool b =>
    cases h
    exact iff_of_true rfl (by unfold Plain; cases b <;> decide)
  | string inside =>
    have hstring : (string inside).string? some = some s := h
    exact string?_decode_iff hstring
  | _ => cases h

theorem bind_string?_decode_iff {found : Option Written} {text : Option String}
    (h : found.bind (string? some) = text) :
    found.bind (string? decode) = text ↔ ∀ s ∈ text, Plain s := by
  cases found with
  | none =>
    cases h
    exact iff_of_true rfl fun s hs => by cases hs
  | some tree =>
    cases text with
    | some s =>
      refine (string?_decode_iff h).trans ⟨?_, fun hplain => hplain s rfl⟩
      rintro hplain _ ⟨⟩
      exact hplain
    | none =>
      refine iff_of_true ?_ fun s hs => by cases hs
      cases tree with
      | string inside => cases h
      | _ => rfl

theorem map_string?_decode_iff {trees : List Written} {texts : List String}
    (h : trees.map (string? some) = texts.map some) :
    trees.map (string? decode) = texts.map some ↔ ∀ s ∈ texts, Plain s := by
  induction trees generalizing texts with
  | nil =>
    rw [List.map_eq_nil_iff.1 h.symm]
    exact iff_of_true rfl fun s hs => by cases hs
  | cons tree rest ih =>
    cases texts with
    | nil => cases h
    | cons s texts =>
      obtain ⟨hfirst, hrest⟩ := List.cons.inj h
      rw [List.map_cons, List.map_cons, List.cons.injEq, string?_decode_iff hfirst, ih hrest,
        List.forall_mem_cons]

end Json.Written

/-- The strings of a rule that come from its text. -/
def Rule.strings (rule : Rule) : List String :=
  rule.condition :: (rule.name.toList ++ rule.body ++ rule.actions)

/-- The strings of a declaration that come from its text. -/
def Parameter.Spec.strings (spec : Spec) : List String := spec.name :: spec.pattern.toList

/-- The strings of a configuration that come from its text. -/
def Configuration.strings (configuration : Configuration) : List String :=
  configuration.before ++ configuration.rules.flatMap Rule.strings ++ configuration.after ++
    configuration.parameters.flatMap Parameter.Spec.strings

namespace Json.Written

variable {tree : Written}

theorem GivesRule.decode_iff {rule : Rule} (h : tree.GivesRule some rule) (hplain : tree.PlainNames) :
    tree.GivesRule decode rule ↔ ∀ s ∈ rule.strings, Plain s := by
  have hcondition : (tree.member? some "condition").bind (condition? decode) = some rule.condition ↔
      Plain rule.condition := by
    obtain ⟨found, hfound, hcondition⟩ := Option.bind_eq_some_iff.1 h.condition
    rw [hfound]
    exact condition?_decode_iff hcondition
  have hgives : tree.GivesRule decode rule ↔
      (tree.member? some "condition").bind (condition? decode) = some rule.condition ∧
      (tree.member? some "name").bind (string? decode) = rule.name ∧
      (Written.body (tree.member? some "body")).map (string? decode) = rule.body.map some ∧
      (itemsOf (tree.member? some "executionActions")).map (string? decode) =
        rule.actions.map some := by
    simp only [← hplain.member?_decode]
    exact ⟨fun h => ⟨h.condition, h.name, h.body, h.actions⟩,
      fun h => ⟨h.1, h.2.1, h.2.2.1, h.2.2.2⟩⟩
  rw [hgives, hcondition, bind_string?_decode_iff h.name, map_string?_decode_iff h.body,
    map_string?_decode_iff h.actions]
  simp only [Rule.strings, List.mem_cons, List.mem_append, Option.mem_toList, Option.mem_def, or_imp,
    forall_and, forall_eq, and_assoc]

theorem GivesSpec.decode_iff {spec : Parameter.Spec} (h : tree.GivesSpec some spec)
    (hplain : tree.PlainNames) : tree.GivesSpec decode spec ↔ ∀ s ∈ spec.strings, Plain s := by
  have hgives : tree.GivesSpec decode spec ↔
      (tree.member? some "name").bind (string? decode) = some spec.name ∧
      (tree.member? some "pattern").bind (string? decode) = spec.pattern := by
    simp only [← hplain.member?_decode]
    exact ⟨fun h => ⟨h.name, h.pattern⟩, fun h => ⟨h.1, h.2⟩⟩
  rw [hgives, bind_string?_decode_iff h.name, bind_string?_decode_iff h.pattern]
  simp only [Parameter.Spec.strings, List.mem_cons, Option.mem_toList, or_imp, forall_and, forall_eq,
    Option.mem_def, Option.some_inj, forall_eq']

theorem forall₂_iff_of_forall₂ {α : Type} {R S : Written → α → Prop} {p : α → Prop}
    {trees : List Written} {found : List α} (h : List.Forall₂ R trees found)
    (hiff : ∀ tree ∈ trees, ∀ a, R tree a → (S tree a ↔ p a)) :
    List.Forall₂ S trees found ↔ ∀ a ∈ found, p a := by
  induction h with
  | nil => exact iff_of_true .nil fun a ha => absurd ha List.not_mem_nil
  | cons hfirst hrest ih =>
    rw [List.forall₂_cons, List.forall_mem_cons, hiff _ List.mem_cons_self _ hfirst,
      ih fun tree htree => hiff tree (List.mem_cons_of_mem _ htree)]

/-- If only strings have escapes, decoding changes a configuration unless it has none of them. -/
theorem Gives.decode_iff {configuration : Configuration} (h : tree.Gives some configuration)
    (hplain : tree.PlainPlaces) :
    tree.Gives decode configuration ↔ ∀ s ∈ configuration.strings, Plain s := by
  have hgives : tree.Gives decode configuration ↔
      (itemsOf (tree.member? some "preExecution")).map (string? decode) =
        configuration.before.map some ∧
      List.Forall₂ (GivesRule decode) (itemsOf (tree.member? some "rules")) configuration.rules ∧
      (itemsOf (tree.member? some "postExecution")).map (string? decode) =
        configuration.after.map some ∧
      List.Forall₂ (GivesSpec decode) (itemsOf (tree.member? some "inputValidation"))
        configuration.parameters := by
    simp only [← hplain.sections.member?_decode]
    exact ⟨fun h => ⟨h.before, h.rules, h.after, h.parameters⟩,
      fun h => ⟨h.1, h.2.1, h.2.2.1, h.2.2.2⟩⟩
  have hrules := forall₂_iff_of_forall₂ h.rules fun item hitem rule hrule =>
    hrule.decode_iff (hplain.rules item hitem)
  have hspecs := forall₂_iff_of_forall₂ h.parameters fun item hitem spec hspec =>
    hspec.decode_iff (hplain.parameters item hitem)
  rw [hgives, map_string?_decode_iff h.before, hrules, map_string?_decode_iff h.after, hspecs]
  simp only [Configuration.strings, List.mem_append, List.mem_flatMap, or_imp, forall_and,
    forall_exists_index, and_imp, and_assoc]
  grind

end Json.Written

/-! ### The document -/

/-- The document of the verbatim value is empty if the search for its text comes to nothing. -/
theorem Json.Written.Yields.documentOf {tree : Written} {fields : Fields Value} {document : String}
    (h : tree.Yields "document" none)
    (hget : ∀ name, fields.get? name = (tree.member? some name).map verbatim)
    (hdocument : Configuration.documentOf fields = .ok document) : document = "\x7b\x7d" := by
  unfold Configuration.documentOf at hdocument
  rw [hget] at hdocument
  cases hfind : tree.members.reverse.find? (Member.isNamed some "document") with
  | none =>
    rw [member?, hfind] at hdocument
    exact (Except.ok.inj hdocument).symm
  | some member =>
    rw [member?, hfind] at hdocument
    have hmem := List.mem_reverse.1 (List.mem_of_find?_eq_some hfind)
    have hname : Member.isNamed some "document" member = true := List.find?_some hfind
    have hchars : member.1.chars = "document".toList := Option.some.inj (eq_of_beq hname)
    -- The name has no escapes, so the search has come to this member.
    have hnamed : Member.isNamed decode "document" member = true := by
      rw [Member.isNamed, member.1.decode_eq_iff.2 (hchars ▸ by decide), hchars]
      exact beq_self_eq_true _
    have hfilter : tree.members.filter (Member.isNamed decode "document") = [member] := by
      have hlength := h.unique
      have hmember := List.mem_filter.2 ⟨hmem, hnamed⟩
      obtain ⟨found, hfound⟩ := List.length_eq_one_iff.1
        (Nat.le_antisymm hlength (List.length_pos_of_mem hmember))
      rw [hfound] at hmember ⊢
      rw [List.mem_singleton.1 hmember]
    have htext : Member.text? member = none := by
      have hfound := h.found_eq
      rw [textOf?, ← List.head?_filter, hfilter] at hfound
      exact hfound.symm
    obtain ⟨name, source, value⟩ := member
    cases value with
    | null => exact (Except.ok.inj hdocument).symm
    | _ => cases htext

/-- **A JSON text means as a configuration what is written there.** A text that is accepted has one
structure. Statements, conditions, names, bodies, actions and patterns of the configuration are, in
their order, the insides of the string literals at their places. If the names on the way to them have
no escapes, they are what the literals stand for exactly if none of them has a backslash. The document
is the text of the member of its name, unless that is missing or null; then it is the empty object. -/
theorem configuration_as_written {text : String} {configuration : Configuration}
    (h : Source.json.configuration text = .ok (.ok configuration)) :
    ∃ tree, Denotes text tree ∧ (∀ other, Denotes text other → other = tree) ∧
      tree.Gives some configuration ∧
      (tree.PlainPlaces →
        (tree.Gives decode configuration ↔ ∀ s ∈ configuration.strings, Plain s)) ∧
      configuration.document = (tree.textOf? "document").getD "\x7b\x7d" := by
  obtain ⟨fields, base, found, hvalue, hsections, hfound, rfl⟩ := Source.exists_of_configuration h
  have hread : Verbatim.read? text = some (.record fields) := by
    simp only [Source.json] at hvalue
    split at hvalue
    · rename_i hread
      cases hvalue
      exact hread
    · cases hvalue
  have hmember : memberText "document" text = some found := by
    simp only [Source.json] at hfound
    split at hfound
    · rename_i hmember
      cases hfound
      exact hmember
    · cases hfound
  obtain ⟨tree, hdenotes, hyields⟩ := exists_denotes_of_memberText hmember
  obtain ⟨hobject, hget⟩ :=
    exists_of_verbatim_eq_record (Verbatim.eq_verbatim_of_read? hread hdenotes).symm
  have hyields := hyields hobject
  have hgives := gives_of_sections hget hsections
  have hgives : tree.Gives some { base with document := found.getD base.document } :=
    ⟨hgives.before, hgives.rules, hgives.after, hgives.parameters⟩
  refine ⟨tree, hdenotes, fun other hother => hother.unique hdenotes, hgives,
    fun hplain => hgives.decode_iff hplain, ?_⟩
  show found.getD base.document = _
  rw [← hyields.found_eq]
  cases found with
  | some document => rfl
  | none => exact hyields.documentOf hget hsections.document

/-- A condition with quotes keeps the backslashes before them, and is not what its literal stands for. -/
theorem configuration_as_written_of_quotes :
    ∃ configuration, Source.json.configuration
        "\x7b\"rules\":[\x7b\"condition\":\"input.name == \\\"Ann\\\"\"\x7d]\x7d" =
          .ok (.ok configuration) ∧
      configuration.rules.map (·.condition) = ["input.name == \\\"Ann\\\""] ∧
      ∃ tree : Written, tree.Gives some configuration ∧
        (tree.PlainPlaces → ¬ tree.Gives decode configuration) := by
  have htext : Source.json.configuration
      "\x7b\"rules\":[\x7b\"condition\":\"input.name == \\\"Ann\\\"\"\x7d]\x7d" =
        .ok (.ok { rules := [{ condition := "input.name == \\\"Ann\\\"" }] }) := by cbv
  obtain ⟨tree, -, -, hgives, hplain, -⟩ := configuration_as_written htext
  refine ⟨_, htext, rfl, tree, hgives, fun hplaces hdecode => ?_⟩
  have hcondition := (hplain hplaces).1 hdecode "input.name == \\\"Ann\\\"" List.mem_cons_self
  exact hcondition (by decide)

end Rulebook
