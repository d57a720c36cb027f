import Rulebook.Proofs.Json.Scalars

/-!
# Written values are read back

The reader of JSON gives back what the printer wrote, unless the brackets are nested too deeply for
it: `read?_compact`. The induction follows the value; in front of what follows a value, an item or a
member, the reader stops at the same place.
-/

namespace Rulebook.Json

mutual

/-- The greatest number of brackets around a part of a value. -/
def depth : Json → Nat
  | array items => depthItems items + 1
  | object members => depthMembers members + 1
  | _ => 0

/-- The greatest number of brackets around a part of an item. -/
def depthItems : List Json → Nat
  | [] => 0
  | item :: rest => max (depth item) (depthItems rest)

/-- The greatest number of brackets around a part of a member. -/
def depthMembers : List (String × Json) → Nat
  | [] => 0
  | (_, value) :: rest => max (depth value) (depthMembers rest)

end

mutual

/-- Whether the integers of a value have 64 bits and its doubles are read back from their texts. -/
def Writable : Json → Prop
  | integer n => -0x8000000000000000 ≤ n ∧ n < 0x10000000000000000
  | real x => ReadsBack x
  | array items => WritableItems items
  | object members => WritableMembers members
  | _ => True

/-- Whether items are writable. -/
def WritableItems : List Json → Prop
  | [] => True
  | item :: rest => Writable item ∧ WritableItems rest

/-- Whether members are writable. -/
def WritableMembers : List (String × Json) → Prop
  | [] => True
  | (_, value) :: rest => Writable value ∧ WritableMembers rest

end

mutual

/-- The same value with every name of an object once, namely with its last value. -/
def settled : Json → Json
  | array items => array (settledItems items)
  | object members => object (Fields.ofPairs (settledMembers members))
  | value => value

/-- The items with every name of their objects once. -/
def settledItems : List Json → List Json
  | [] => []
  | item :: rest => settled item :: settledItems rest

/-- The members with every name of the objects in them once. -/
def settledMembers : List (String × Json) → List (String × Json)
  | [] => []
  | (name, value) :: rest => (name, settled value) :: settledMembers rest

end

/-! ### The texts of items and members -/

theorem toList_joinWith_cons (text next : String) (more : List String) :
    (joinWith "," (text :: next :: more)).toList =
      text.toList ++ ',' :: (joinWith "," (next :: more)).toList := by
  simp [joinWith]

theorem toList_quote (s : String) :
    (quote s).toList = '"' :: (s.toList.flatMap escapeChar ++ ['"']) := by
  rw [quote, String.toList_ofList, List.cons_append]

theorem toList_member (name : String) (value : Json) :
    (quote name ++ ":" ++ compact value).toList =
      '"' :: (name.toList.flatMap escapeChar ++ '"' :: ':' :: (compact value).toList) := by
  simp [toList_quote]

/-- No written value begins with a blank or a closing bracket. -/
theorem exists_compact_eq_cons {value : Json} (h : Writable value) : ∃ c s,
    (compact value).toList = c :: s ∧ isSpace c = false ∧ c ≠ ']' := by
  have hnumeral {s : List Char} {numeral : Numeral} (hs : splitNumeral false s = some (numeral, [])) :
      ∃ c tail, s = c :: tail ∧ isSpace c = false ∧ c ≠ ']' := by
    obtain ⟨c, tail, rfl, hc⟩ := exists_cons_of_splitNumeral hs
    refine ⟨c, tail, rfl, isSpace_of_isNumeralPart hc, ?_⟩
    rintro rfl
    exact absurd hc (by decide)
  cases value with
  | null => exact ⟨'n', _, rfl, rfl, by decide⟩
  | bool b =>
    cases b
    · exact ⟨'f', _, rfl, rfl, by decide⟩
    · exact ⟨'t', _, rfl, rfl, by decide⟩
  | integer n => exact hnumeral (splitNumeral_integer n)
  | real x =>
    obtain ⟨numeral, hs, -⟩ := ReadsBack.exists_numeral h
    exact hnumeral hs
  | string s => exact ⟨'"', _, toList_quote s, rfl, by decide⟩
  | array items => exact ⟨'[', _, by simp [compact]; rfl, rfl, by decide⟩
  | object members => exact ⟨'\x7b', _, by simp [compact]; rfl, rfl, by decide⟩

theorem exists_joined_eq_cons {item : Json} (items : List Json) (h : Writable item) : ∃ c s,
    (joinWith "," (compactItems (item :: items))).toList = c :: s ∧ isSpace c = false ∧ c ≠ ']' := by
  obtain ⟨c, s, hcons, hc⟩ := exists_compact_eq_cons h
  cases items with
  | nil => exact ⟨c, s, hcons, hc⟩
  | cons next more =>
    refine ⟨c, s ++ ',' :: (joinWith "," (compactItems (next :: more))).toList, ?_, hc⟩
    rw [← List.cons_append, ← hcons]
    exact toList_joinWith_cons _ _ _

/-- The members of an object, as texts. -/
theorem compactMembers_cons (member : String × Json) (members : List (String × Json)) :
    compactMembers (member :: members) =
      (quote member.1 ++ ":" ++ compact member.2) :: compactMembers members := rfl

theorem exists_joinedMembers_eq_cons (member : String × Json) (members : List (String × Json)) :
    ∃ s, (joinWith "," (compactMembers (member :: members))).toList = '"' :: s := by
  cases members with
  | nil => exact ⟨_, toList_member member.1 member.2⟩
  | cons next more =>
    rw [compactMembers_cons, compactMembers_cons, toList_joinWith_cons, toList_member,
      List.cons_append]
    exact ⟨_, rfl⟩

/-! ### The steps of the reader -/

section

variable (fuel limit : Nat) (rest : List Char)

theorem readValue_string (s : String) : readValue (fuel + 1) limit ((quote s).toList ++ rest) =
    some (string s, rest) := by
  rw [toList_quote, List.cons_append, List.append_assoc]
  show (readString _).bind _ = _
  rw [List.singleton_append, readString_escape]
  rfl

/-- What the reader does behind the opening bracket of an array. -/
def firstItems : List Char → Option (Json × List Char)
  | ']' :: after => some (array [], after)
  | rest => do
    let (items, after) ← readItems fuel limit rest
    return (array items, after)

/-- The reader at the first item of an array. -/
theorem readValue_items {c : Char} (hc : isSpace c = false) (hne : c ≠ ']') :
    readValue (fuel + 1) (limit + 1) ('[' :: c :: rest) =
      (readItems fuel limit (c :: rest)).bind fun (items, after) => some (array items, after) := by
  have hfirst : readValue (fuel + 1) (limit + 1) ('[' :: c :: rest) =
      firstItems fuel limit (skipSpace (c :: rest)) := rfl
  rw [hfirst, skipSpace_cons hc, firstItems]
  · rfl
  · intro after heq
    exact hne (List.cons.inj heq).1

/-- The reader at the first member of an object. -/
theorem readValue_members : readValue (fuel + 1) (limit + 1) ('\x7b' :: '"' :: rest) =
    (readMembers fuel limit ('"' :: rest)).bind fun (members, after) =>
      some (object (Fields.ofPairs members), after) := rfl

/-- What the reader does behind an item. -/
def moreItems (item : Json) : List Char → Option (List Json × List Char)
  | ',' :: rest => do
    let (items, after) ← readItems fuel limit rest
    return (item :: items, after)
  | ']' :: after => return ([item], after)
  | _ => none

theorem readItems_succ (s : List Char) : readItems (fuel + 1) limit s =
    (readValue fuel limit s).bind fun (item, s) => moreItems fuel limit item (skipSpace s) := by
  rw [readItems]
  rfl

/-- What the reader does behind a member. -/
def moreMembers (name : String) (value : Json) : List Char → Option (List (String × Json) × List Char)
  | ',' :: rest => do
    let (members, after) ← readMembers fuel limit rest
    return ((name, value) :: members, after)
  | '\x7d' :: after => return ([(name, value)], after)
  | _ => none

theorem readMembers_succ (name : String) (value : Json) :
    readMembers (fuel + 1) limit ((quote name ++ ":" ++ compact value).toList ++ rest) =
      (readValue fuel limit ((compact value).toList ++ rest)).bind fun (value, s) =>
        moreMembers fuel limit name value (skipSpace s) := by
  rw [toList_member, List.cons_append, List.append_assoc, readMembers]
  show (readString _).bind _ = _
  rw [List.cons_append, readString_escape]
  rfl

end

/-! ### Reading what was written -/

/-- Whether a written value is read back wherever it stands, if its brackets are nested no deeper than
the reader may go. -/
def IsRead (value : Json) : Prop :=
  ∀ {fuel limit : Nat} {rest : List Char}, Ends rest → 2 * (compact value).toList.length ≤ fuel →
    readValue fuel limit ((compact value).toList ++ rest) =
      if depth value ≤ limit then some (settled value, rest) else none

/-- Whether written items are read back up to their closing bracket. -/
def AreReadItems (items : List Json) : Prop :=
  ∀ {fuel limit : Nat} {rest : List Char},
    2 * (joinWith "," (compactItems items)).toList.length < fuel →
    readItems fuel limit ((joinWith "," (compactItems items)).toList ++ ']' :: rest) =
      if depthItems items ≤ limit then some (settledItems items, rest) else none

/-- Whether written members are read back up to their closing brace. -/
def AreReadMembers (members : List (String × Json)) : Prop :=
  ∀ {fuel limit : Nat} {rest : List Char},
    2 * (joinWith "," (compactMembers members)).toList.length < fuel →
    readMembers fuel limit ((joinWith "," (compactMembers members)).toList ++ '\x7d' :: rest) =
      if depthMembers members ≤ limit then some (settledMembers members, rest) else none

/-- A value that is not too short for a step is read if it is read after the step was taken. -/
theorem isRead_of_succ {value : Json} (hwritable : Writable value)
    (h : ∀ {n limit : Nat} {rest : List Char}, Ends rest →
      2 * (compact value).toList.length ≤ n + 1 →
      readValue (n + 1) limit ((compact value).toList ++ rest) =
        if depth value ≤ limit then some (settled value, rest) else none) : IsRead value := by
  intro fuel limit rest hrest hfuel
  obtain ⟨c, s, hcons, -⟩ := exists_compact_eq_cons hwritable
  have hpos : fuel ≠ 0 := by
    rw [hcons, List.length_cons] at hfuel
    omega
  obtain ⟨n, rfl⟩ := Nat.exists_eq_add_one_of_ne_zero hpos
  exact h hrest hfuel

theorem isRead_array {items : List Json} (hwritable : WritableItems items)
    (h : items ≠ [] → AreReadItems items) : IsRead (array items) := by
  refine isRead_of_succ (by simpa only [Writable] using hwritable) fun {n limit rest} _ hfuel => ?_
  have htext : (compact (array items)).toList ++ rest =
      '[' :: ((joinWith "," (compactItems items)).toList ++ ']' :: rest) := by
    simp [compact]
  have hlength : (compact (array items)).toList.length =
      (joinWith "," (compactItems items)).toList.length + 2 := by
    simp [compact]
  rw [htext]
  cases items with
  | nil => cases limit <;> rfl
  | cons item items =>
    cases limit with
    | zero => rfl
    | succ limit =>
      have hitems := @h (List.cons_ne_nil _ _) n limit rest (by omega)
      obtain ⟨c, s, hcons, hspace, hne⟩ := exists_joined_eq_cons items hwritable.1
      rw [hcons, List.cons_append] at hitems ⊢
      rw [readValue_items n limit _ hspace hne, hitems]
      simp only [depth, Nat.add_le_add_iff_right]
      split <;> rfl

theorem isRead_object {members : List (String × Json)} (hwritable : WritableMembers members)
    (h : members ≠ [] → AreReadMembers members) : IsRead (object members) := by
  refine isRead_of_succ (by simpa only [Writable] using hwritable) fun {n limit rest} _ hfuel => ?_
  have htext : (compact (object members)).toList ++ rest =
      '\x7b' :: ((joinWith "," (compactMembers members)).toList ++ '\x7d' :: rest) := by
    simp [compact]
  have hlength : (compact (object members)).toList.length =
      (joinWith "," (compactMembers members)).toList.length + 2 := by
    simp [compact]
  rw [htext]
  cases members with
  | nil => cases limit <;> rfl
  | cons member members =>
    cases limit with
    | zero => rfl
    | succ limit =>
      have hmembers := @h (List.cons_ne_nil _ _) n limit rest (by omega)
      obtain ⟨s, hcons⟩ := exists_joinedMembers_eq_cons member members
      rw [hcons, List.cons_append] at hmembers ⊢
      rw [readValue_members n limit _, hmembers]
      simp only [depth, Nat.add_le_add_iff_right]
      split <;> rfl

/-- An item is followed by a comma and more items, or by the closing bracket. -/
theorem areReadItems_cons {item : Json} {items : List Json} (hitem : IsRead item)
    (hitems : items ≠ [] → AreReadItems items) : AreReadItems (item :: items) := by
  intro fuel limit rest hfuel
  obtain ⟨n, rfl⟩ := Nat.exists_eq_add_one_of_ne_zero (Nat.ne_zero_of_lt hfuel)
  rw [readItems_succ]
  cases items with
  | nil =>
    have htext : joinWith "," (compactItems [item]) = compact item := rfl
    have hdepth : depthItems [item] = depth item := Nat.max_zero _
    rw [htext] at hfuel ⊢
    rw [@hitem n limit (']' :: rest) (ends_cons rfl _) (by omega), hdepth]
    split <;> rfl
  | cons next more =>
    have htext : (joinWith "," (compactItems (item :: next :: more))).toList =
        (compact item).toList ++ ',' :: (joinWith "," (compactItems (next :: more))).toList :=
      toList_joinWith_cons _ _ _
    have hdepth : depthItems (item :: next :: more) ≤ limit ↔
        depth item ≤ limit ∧ depthItems (next :: more) ≤ limit := Nat.max_le
    rw [htext, List.length_append, List.length_cons] at hfuel
    rw [htext, List.append_assoc, List.cons_append, @hitem n limit _ (ends_cons rfl _) (by omega)]
    by_cases hdeep : depth item ≤ limit
    · rw [if_pos hdeep]
      show (readItems n limit _).bind _ = _
      rw [@hitems (List.cons_ne_nil _ _) n limit rest (by omega)]
      by_cases hrest : depthItems (next :: more) ≤ limit
      · rw [if_pos hrest, if_pos (hdepth.2 ⟨hdeep, hrest⟩)]
        rfl
      · rw [if_neg hrest, if_neg fun h => hrest (hdepth.1 h).2]
        rfl
    · rw [if_neg hdeep, if_neg fun h => hdeep (hdepth.1 h).1]
      rfl

/-- A member is followed by a comma and more members, or by the closing brace. -/
theorem areReadMembers_cons {name : String} {value : Json} {members : List (String × Json)}
    (hvalue : IsRead value) (hmembers : members ≠ [] → AreReadMembers members) :
    AreReadMembers ((name, value) :: members) := by
  intro fuel limit rest hfuel
  obtain ⟨n, rfl⟩ := Nat.exists_eq_add_one_of_ne_zero (Nat.ne_zero_of_lt hfuel)
  have hlength : (compact value).toList.length ≤
      (quote name ++ ":" ++ compact value).toList.length := by
    rw [String.toList_append, List.length_append]
    exact Nat.le_add_left _ _
  cases members with
  | nil =>
    have htext : joinWith "," (compactMembers [(name, value)]) =
        quote name ++ ":" ++ compact value := rfl
    have hdepth : depthMembers [(name, value)] = depth value := Nat.max_zero _
    rw [htext] at hfuel ⊢
    rw [readMembers_succ, @hvalue n limit ('\x7d' :: rest) (ends_cons rfl _) (by omega), hdepth]
    split <;> rfl
  | cons next more =>
    have htext : (joinWith "," (compactMembers ((name, value) :: next :: more))).toList =
        (quote name ++ ":" ++ compact value).toList ++
          ',' :: (joinWith "," (compactMembers (next :: more))).toList :=
      toList_joinWith_cons _ _ _
    have hdepth : depthMembers ((name, value) :: next :: more) ≤ limit ↔
        depth value ≤ limit ∧ depthMembers (next :: more) ≤ limit := Nat.max_le
    rw [htext, List.length_append, List.length_cons] at hfuel
    rw [htext, List.append_assoc, List.cons_append, readMembers_succ,
      @hvalue n limit _ (ends_cons rfl _) (by omega)]
    -- an object is too deep as soon as one of its members is
    by_cases hdeep : depth value ≤ limit
    · rw [if_pos hdeep]
      show (readMembers n limit _).bind _ = _
      rw [@hmembers (List.cons_ne_nil _ _) n limit rest (by omega)]
      by_cases hrest : depthMembers (next :: more) ≤ limit
      · rw [if_pos hrest, if_pos (hdepth.2 ⟨hdeep, hrest⟩)]
        rfl
      · rw [if_neg hrest, if_neg fun h => hrest (hdepth.1 h).2]
        rfl
    · rw [if_neg hdeep, if_neg fun h => hdeep (hdepth.1 h).1]
      rfl

mutual

theorem isRead_of_writable : ∀ {value : Json}, Writable value → IsRead value
  | null, h => isRead_of_succ h fun _ _ => rfl
  | bool true, h => isRead_of_succ h fun _ _ => rfl
  | bool false, h => isRead_of_succ h fun _ _ => rfl
  | integer n, h => isRead_of_succ h fun hrest _ =>
    readValue_of_splitNumeral (splitNumeral_integer n) (ofNumeral_integer h) hrest _ _
  | real x, h => by
    obtain ⟨numeral, hs, hvalue⟩ := ReadsBack.exists_numeral h
    exact isRead_of_succ h fun hrest _ => readValue_of_splitNumeral hs hvalue hrest _ _
  | string s, h => isRead_of_succ h fun _ _ => readValue_string _ _ _ s
  | array _, h => isRead_array h fun hne => areReadItems_of_writable hne h
  | object _, h => isRead_object h fun hne => areReadMembers_of_writable hne h

theorem areReadItems_of_writable : ∀ {items : List Json}, items ≠ [] → WritableItems items →
    AreReadItems items
  | [], hne, _ => absurd rfl hne
  | _ :: _, _, h => areReadItems_cons (isRead_of_writable h.1) fun hne =>
    areReadItems_of_writable hne h.2

theorem areReadMembers_of_writable : ∀ {members : List (String × Json)}, members ≠ [] →
    WritableMembers members → AreReadMembers members
  | [], hne, _ => absurd rfl hne
  | (_, _) :: _, _, h => areReadMembers_cons (isRead_of_writable h.1) fun hne =>
    areReadMembers_of_writable hne h.2

end

/-- The text of a value denotes the value unless its brackets are nested too deeply. -/
theorem read?_compact {value : Json} (h : Writable value) :
    read? (compact value) = if depth value ≤ maxDepth then some (settled value) else none := by
  have hread := @isRead_of_writable value h (2 * (compact value).toList.length + 2) maxDepth [] rfl
    (by omega)
  rw [List.append_nil] at hread
  unfold read?
  dsimp only
  rw [hread]
  split <;> rfl

end Rulebook.Json
