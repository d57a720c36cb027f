import Rulebook.Proofs.Script.Congruence

/-!
# Lifting a relation to runs

`Congruence.Lifts` lists what evaluations in two settings ask for besides their parts and variables:
functions, the host, actions and output. If all of this is related, then so is every construct, told
here in the order of the definitions, and in the end one step of the interpreter: `Lifts.step`.
-/

namespace Rulebook.Script.Eval.Congruence

variable {C : Congruence}

/-- Two settings, and a runner for each of them, that are related in all that evaluations ask them
for. -/
structure Lifts (C : Congruence) (setting setting' : Setting) (runner runner' : Runner) : Prop where
  functions : setting'.function? = setting.function?
  actions : setting'.sandbox.actions = setting.sandbox.actions
  runs : ∀ task : Task, C.Spares (fun n => task.spares n) →
    C.Relates Whatever (runner task) (runner' task)
  callFunction : ∀ f arguments subject position,
    C.Relates Whatever (Eval.callFunction runner f arguments subject position)
      (Eval.callFunction runner' f arguments subject position)
  callHost : ∀ name arguments, Option.Rel (C.Relates Whatever)
    (Eval.callHost setting name arguments) (Eval.callHost setting' name arguments)
  hasModule : ∀ path,
    C.Relates Whatever (Eval.hasModule setting.host path) (Eval.hasModule setting'.host path)
  /-- What an action leaves. -/
  leave : ∀ name action, setting.sandbox.actions.get? name = some action →
    ∀ document input, C.Relates Whatever (write (action.run document input).output)
      (write (action.run document input).output)
  /-- What a script prints. -/
  print : ∀ name text position,
    C.Relates Whatever (write (setting.wordOutput name text position))
      (write (setting'.wordOutput name text position))

namespace Lifts

variable {setting setting' : Setting} {runner runner' : Runner}
  (h : C.Lifts setting setting' runner runner')

include h

theorem callAction {name : String} {action : Action}
    (haction : setting.sandbox.actions.get? name = some action) (document input : Datum)
    (position : Option Position) :
    C.Relates Whatever (Eval.callAction name action document input position)
      (Eval.callAction name action document input position) := by
  refine (relates_toValue _ _).bind fun document _ => (relates_toValue _ _).bind fun input _ => ?_
  refine (h.leave name action haction document input).next ?_
  split
  · exact .signal _
  · exact .fail _ _
  · exact .pure trivial

theorem callNative (name : String) (arguments : List Datum) (position : Option Position) :
    C.Relates Whatever (Eval.callNative setting name arguments position)
      (Eval.callNative setting' name arguments position) := by
  unfold Eval.callNative
  split
  · exact .ofResult _ fun _ _ => trivial
  · rename_i hfind
    clear hfind
    have hhost := h.callHost name arguments
    generalize Eval.callHost setting name arguments = reached at hhost
    generalize Eval.callHost setting' name arguments = reached' at hhost
    cases hhost with
    | some hreached => exact hreached.bind fun _ _ => .pure trivial
    | none =>
      rw [h.actions]
      dsimp only
      split
      · rename_i haction
        exact (h.callAction haction _ _ _).bind
          fun _ _ => .pure trivial
      · exact .fail _ _

theorem callPointer (name : String) (arguments : List Datum) (subject : Option Datum)
    (position : Option Position) :
    C.Relates Whatever
      (Eval.callPointer setting runner name arguments subject position)
      (Eval.callPointer setting' runner' name arguments subject position) := by
  unfold Eval.callPointer
  rw [h.functions]
  split
  · exact h.callFunction _ _ _ _
  · refine (relates_content arguments).bind fun arguments _ => ?_
    exact (h.callNative _ _ _).bind fun _ _ => .pure trivial

theorem callForItem (name : String) (bound : List Datum) (call : ItemCall)
    (position : Option Position) :
    C.Relates Whatever
      (Eval.callForItem setting runner name bound call position)
      (Eval.callForItem setting' runner' name bound call position) := by
  unfold Eval.callForItem
  dsimp only
  simp only [h.functions]
  split
  · exact relates_valueOf (h.callFunction _ _ _ _)
  · exact relates_valueOf (h.callFunction _ _ _ _)
  · exact relates_valueOf (h.callFunction _ _ _ _)
  · exact relates_valueOf (h.callPointer _ _ _ _)

/-! ### Functions that take functions -/

section

variable (position : Option Position) (f : Pointer)

theorem onItem (item : Datum) (place : Nat) :
    C.Relates Whatever (Eval.onItem setting runner position f item place)
      (Eval.onItem setting' runner' position f item place) :=
  h.callForItem _ _ _ _

theorem holdsFor (item : Datum) (place : Nat) :
    C.Relates Whatever (Eval.holdsFor setting runner position f item place)
      (Eval.holdsFor setting' runner' position f item place) := by
  refine (h.onItem position f item place).bind fun value _ => ?_
  split <;> exact .pure trivial

theorem partition (place : Nat) (items : List Datum) :
    C.Relates Whatever (Eval.partition setting runner position f place items)
      (Eval.partition setting' runner' position f place items) := by
  induction items generalizing place with
  | nil => exact .pure trivial
  | cons item rest ih =>
    exact (h.holdsFor position f item place).bind fun _ _ => (ih _).bind fun _ _ => .pure trivial

theorem mapItems (place : Nat) (items : List Datum) :
    C.Relates Whatever (Eval.mapItems setting runner position f place items)
      (Eval.mapItems setting' runner' position f place items) := by
  induction items generalizing place with
  | nil => exact .pure trivial
  | cons item rest ih =>
    exact (h.onItem position f item place).bind fun _ _ => (ih _).bind fun _ _ => .pure trivial

theorem findItem (place : Nat) (items : List Datum) :
    C.Relates Whatever (Eval.findItem setting runner position f place items)
      (Eval.findItem setting' runner' position f place items) := by
  induction items generalizing place with
  | nil => exact .pure trivial
  | cons item rest ih =>
    refine (h.holdsFor position f item place).bind fun holds _ => ?_
    split
    · exact .pure trivial
    · exact ih _

theorem holdsForAll (place : Nat) (items : List Datum) :
    C.Relates Whatever (Eval.holdsForAll setting runner position f place items)
      (Eval.holdsForAll setting' runner' position f place items) := by
  induction items generalizing place with
  | nil => exact .pure trivial
  | cons item rest ih =>
    refine (h.holdsFor position f item place).bind fun holds _ => ?_
    split
    · exact ih _
    · exact .pure trivial

theorem findValue (place : Nat) (items : List Datum) :
    C.Relates Whatever (Eval.findValue setting runner position f place items)
      (Eval.findValue setting' runner' position f place items) := by
  induction items generalizing place with
  | nil => exact .pure trivial
  | cons item rest ih =>
    refine (h.onItem position f item place).bind fun value _ => ?_
    split
    · exact ih _
    · exact .pure trivial

theorem reduceItems (value : Datum) (items : List (Datum × Nat)) :
    C.Relates Whatever (Eval.reduceItems setting runner position f value items)
      (Eval.reduceItems setting' runner' position f value items) := by
  induction items generalizing value with
  | nil => exact .pure trivial
  | cons item rest ih => exact (h.callForItem _ _ _ _).bind fun _ _ => ih _

theorem visitItems (place : Nat) (items : List Datum) :
    C.Relates Whatever (Eval.visitItems setting runner position f place items)
      (Eval.visitItems setting' runner' position f place items) := by
  induction items generalizing place with
  | nil => exact .pure trivial
  | cons item rest ih =>
    unfold Eval.visitItems
    rw [h.functions]
    refine (h.callPointer _ _ _ _).bind fun result _ => ?_
    exact (Relates.ofOutcome fun _ _ => trivial).bind fun _ _ => (ih _).bind fun _ _ => .pure trivial

theorem swaps (a b : Datum) :
    C.Relates Whatever (Eval.swaps setting runner position f a b)
      (Eval.swaps setting' runner' position f a b) := by
  refine (relates_valueOf (h.callPointer _ _ _ _)).bind fun value _ => ?_
  split <;> exact .pure trivial

theorem insertSorted (item : Datum) (items : List Datum) :
    C.Relates Whatever (Eval.insertSorted setting runner position f item items)
      (Eval.insertSorted setting' runner' position f item items) := by
  induction items with
  | nil => exact .pure trivial
  | cons a rest ih =>
    refine (h.swaps position f a item).bind fun before _ => ?_
    split
    · exact .pure trivial
    · exact ih.bind fun _ _ => .pure trivial

theorem sortBy (sorted items : List Datum) :
    C.Relates Whatever (Eval.sortBy setting runner position f sorted items)
      (Eval.sortBy setting' runner' position f sorted items) := by
  induction items generalizing sorted with
  | nil => exact .pure trivial
  | cons item rest ih => exact (h.insertSorted position f item sorted).bind fun _ _ => ih _

theorem dedupBy (items : List Datum) :
    C.Relates Whatever (Eval.dedupBy setting runner position f items)
      (Eval.dedupBy setting' runner' position f items) := by
  induction items with
  | nil => exact .pure trivial
  | cons item rest ih =>
    refine ih.bind fun others _ => ?_
    split
    · refine (relates_valueOf (h.callPointer _ _ _ _)).bind fun value _ => ?_
      split <;> exact .pure trivial
    · exact .pure trivial

theorem partitionMembers (members : List (String × Datum)) :
    C.Relates Whatever (Eval.partitionMembers setting runner position f members)
      (Eval.partitionMembers setting' runner' position f members) := by
  induction members with
  | nil => exact .pure trivial
  | cons member rest ih =>
    exact (h.callForItem _ _ _ _).bind fun _ _ => ih.bind fun _ _ => .pure trivial

end

theorem higherOrder (position : Option Position) (name : String) (arguments : List Datum) :
    Option.Rel (C.Relates Whatever)
      (Eval.higherOrder setting runner position name arguments)
      (Eval.higherOrder setting' runner' position name arguments) := by
  unfold Eval.higherOrder
  split
  · exact .some ((relates_sortPlain _ _).bind fun _ _ => .pure trivial)
  · dsimp only
    split
    · exact .some ((h.mapItems _ _ _ _).bind fun _ _ => .pure trivial)
    · exact .some ((h.partition _ _ _ _).bind fun _ _ => .pure trivial)
    · exact .some ((h.findItem _ _ _ _).bind fun _ _ => .pure trivial)
    · exact .some ((h.holdsForAll _ _ _ _).bind fun _ _ => .pure trivial)
    · exact .some ((h.findItem _ _ _ _).bind fun _ _ => .pure trivial)
    · exact .some ((h.findValue _ _ _ _).bind fun _ _ => .pure trivial)
    · exact .some ((h.findItem _ _ _ _).bind fun _ _ => .pure trivial)
    · exact .some ((h.reduceItems _ _ _ _).bind fun _ _ => .pure trivial)
    · exact .some ((h.reduceItems _ _ _ _).bind fun _ _ => .pure trivial)
    · exact .some ((h.reduceItems _ _ _ _).bind fun _ _ => .pure trivial)
    · exact .some ((h.reduceItems _ _ _ _).bind fun _ _ => .pure trivial)
    · exact .some ((h.visitItems _ _ _ _).bind fun _ _ => .pure trivial)
    · exact .some ((h.sortBy _ _ _ _).bind fun _ _ => .pure trivial)
    · exact .some ((h.dedupBy _ _ _).bind fun _ _ => .pure trivial)
    · exact .some ((h.partition _ _ _ _).bind fun _ _ => .pure trivial)
    · exact .some ((h.partition _ _ _ _).bind fun _ _ => .pure trivial)
    · exact .none
  · dsimp only
    split
    · exact .some ((h.partitionMembers _ _ _).bind fun _ _ => .pure trivial)
    · exact .some ((h.partitionMembers _ _ _).bind fun _ _ => .pure trivial)
    · exact .some ((h.partitionMembers _ _ _).bind fun _ _ => .pure trivial)
    · exact .none
  · exact .none

/-! ### Chains -/

theorem values {arguments : List Expr} (hs : C.Spares fun n => Expr.allSpare n arguments) :
    C.Relates Whatever (Eval.values runner arguments) (Eval.values runner' arguments) :=
  .collect fun e he => h.runs (.expr e) fun n hn => Expr.allSpare_iff.1 (hs n hn) e he

theorem hop {link : Link} (hs : C.Spares fun n => link.spares n) :
    C.Relates Whatever (Eval.hop runner link) (Eval.hop runner' link) := by
  cases link with
  | member name optional position => exact .pure trivial
  | method name arguments optional position =>
    exact (h.values hs).bind fun _ _ => .pure trivial
  | item index optional position => exact (h.runs (.expr index) hs).bind fun _ _ => .pure trivial

theorem hops {links : List Link} (hs : C.Spares fun n => Link.allSpare n links) :
    C.Relates Whatever (collect (Eval.hop runner) links) (collect (Eval.hop runner') links) :=
  .collect fun link hlink => h.hop fun n hn => Link.allSpare_iff.1 (hs n hn) link hlink

theorem root {e : Expr} (hs : C.Spares fun n => e.spares n) :
    C.Relates C.Fits (Eval.root runner e) (Eval.root runner' e) := by
  unfold Eval.root
  split
  · exact (relates_variableAt hs _).bind fun v hv => (C.content _).bind fun value _ => .pure hv.1
  · exact (C.subjectAt _).bind fun value _ => .pure C.setSubject
  · exact (h.runs (.expr e) hs).bind fun value _ => .pure (fits_value value)

theorem callBuiltIn (name : String) (arguments : List Datum) {place : Place}
    (hplace : C.Fits place) (position : Position) :
    C.Relates Whatever
      (Eval.callBuiltIn setting runner name arguments place position)
      (Eval.callBuiltIn setting' runner' name arguments place position) := by
  have hput (reply : Library.Reply) : C.Relates Whatever
      (do
        if place.constant && Library.isChanging name then fail (.constantSubject name) position
        reply.changed.forM place.put
        return reply.value)
      (do
        if place.constant && Library.isChanging name then fail (.constantSubject name) position
        reply.changed.forM place.put
        return reply.value) := by
    split
    · exact .fail_bind _ _ _ _
    · exact (Relates.forM fun value _ => hplace value).next (.pure trivial)
  have hreply := h.higherOrder (some position) name (place.value :: arguments)
  unfold Eval.callBuiltIn
  generalize Eval.higherOrder setting runner _ _ _ = reply at hreply
  generalize Eval.higherOrder setting' runner' _ _ _ = reply' at hreply
  cases hreply with
  | some hreply => exact hreply.bind fun reply _ => hput reply
  | none => exact (h.callNative _ _ _).bind fun reply _ => hput reply

theorem callOn (name : String) (arguments : List Datum) {place : Place} (hplace : C.Fits place)
    (position : Position) :
    C.Relates Whatever (Eval.callOn setting runner name arguments place position)
      (Eval.callOn setting' runner' name arguments place position) := by
  unfold Eval.callOn
  rw [h.functions]
  split
  · refine (h.callFunction _ _ _ _).bind fun result _ => ?_
    exact (Relates.forM fun value _ => hplace value).next (.ofOutcome fun _ _ => trivial)
  · exact (relates_content arguments).bind fun _ _ => h.callBuiltIn _ _ hplace _

theorem callMethod (name : String) (arguments : List Datum) {place : Place} (hplace : C.Fits place)
    (position : Position) :
    C.Relates Whatever (Eval.callMethod setting runner name arguments place position)
      (Eval.callMethod setting' runner' name arguments place position) := by
  unfold Eval.callMethod
  split
  · exact relates_valueOf (h.callPointer _ _ _ _)
  · exact h.callOn _ _ hplace _
  · exact .fail _ _
  · exact .fail _ _
  · exact .pure trivial
  · exact .fail _ _
  · exact .pure trivial
  · split
    · exact h.callOn _ _ hplace _
    · exact h.callOn _ _ hplace _

theorem memberPlace {place : Place} (hplace : C.Fits place) (name : String) (position : Position) :
    C.Relates C.Fits (Eval.memberPlace setting place name position)
      (Eval.memberPlace setting' place name position) := by
  unfold Eval.memberPlace
  split
  · exact relates_itemPlace hplace _ _
  · split
    · exact (Relates.ofResult _ fun _ _ => trivial).bind (q := Whatever) fun value _ =>
        .pure (fits_value value)
    · have hhost : Option.Rel (C.Relates Whatever)
          (if name = "elapsed" then Eval.callHost setting name [place.value] else none)
          (if name = "elapsed" then Eval.callHost setting' name [place.value] else none) := by
        split
        · exact h.callHost _ _
        · exact .none
      generalize (if name = "elapsed" then Eval.callHost setting name _ else _) = reached at hhost
      generalize (if name = "elapsed" then Eval.callHost setting' name _ else _) = reached' at hhost
      cases hhost with
      | some hreached => exact hreached.bind fun value _ => .pure (fits_value value)
      | none => exact .fail _ _

theorem hopPlace {place : Place} (hplace : C.Fits place) (hop : Hop) :
    C.Relates C.Fits (Eval.hopPlace setting runner place hop)
      (Eval.hopPlace setting' runner' place hop) := by
  cases hop with
  | member name optional position => exact h.memberPlace hplace _ _
  | method name arguments optional position =>
    exact (h.callMethod _ _ hplace _).bind fun value _ => .pure (fits_value value)
  | item index optional position => exact relates_itemPlace hplace _ _

theorem locate {place : Place} (hplace : C.Fits place) (hops : List Hop) :
    C.Relates (fun found => ∀ place, found = some place → C.Fits place)
      (Eval.locate setting runner place hops) (Eval.locate setting' runner' place hops) := by
  induction hops generalizing place with
  | nil => exact .pure fun _ hfound => Option.some.inj hfound ▸ hplace
  | cons hop rest ih =>
    unfold Eval.locate
    split
    · exact .pure fun _ hfound => (by cases hfound)
    · exact (h.hopPlace hplace hop).bind fun place hplace => ih hplace

section

variable {e : Expr} {links : List Link} (he : C.Spares fun n => e.spares n)
  (hlinks : C.Spares fun n => Link.allSpare n links)

include he hlinks

theorem follow :
    C.Relates Whatever (Eval.follow setting runner e links)
      (Eval.follow setting' runner' e links) := by
  refine (h.hops hlinks).bind fun hops _ => (h.root he).bind fun place hplace => ?_
  refine (h.locate hplace hops).bind fun found _ => ?_
  split <;> exact .pure trivial

theorem changeAt {change change' : Datum → Eval Datum}
    (hchange : ∀ old, C.Relates Whatever (change old) (change' old)) :
    C.Relates Whatever (Eval.changeAt setting runner e links change)
      (Eval.changeAt setting' runner' e links change') := by
  refine (h.hops hlinks).bind fun hops _ => (h.root he).bind fun place hplace => ?_
  refine (h.locate hplace hops.dropLast).bind fun found hfound => ?_
  split
  · rename_i place hop _
    split
    · exact .pure trivial
    · split
      · exact relates_changeItem (hfound _ rfl) _ _ hchange
      · exact .fail _ _
      · exact relates_changeItem (hfound _ rfl) _ _ hchange
      · exact .pure trivial
  · exact .pure trivial

end

/-! ### Calls by name -/

theorem changeableArguments {arguments : List Expr}
    (hs : C.Spares fun n => Expr.allSpare n arguments) :
    C.Relates (fun found => ∀ put, found.2 = some put →
        ∀ value, C.Relates Whatever (put value) (put value))
      (Eval.changeableArguments runner arguments) (Eval.changeableArguments runner' arguments) := by
  unfold Eval.changeableArguments
  split
  · obtain ⟨hname, hrest⟩ := spares_and.1 hs
    refine (h.values hrest).bind fun rest _ => (relates_variableAt hname _).bind fun v hv =>
      (C.content _).bind fun value _ => .pure fun put hput => ?_
    obtain ⟨-, hput⟩ := Option.ite_none_left_eq_some.1 hput
    cases hput
    exact hv.1
  · refine (h.values (spares_and.1 hs).2).bind fun rest _ => (C.subjectAt _).bind fun value _ =>
      .pure fun put hput => ?_
    cases hput
    exact C.setSubject
  · exact (h.values hs).bind fun rest _ => .pure fun put hput => (by cases hput)

section

variable {arguments : List Expr} (hs : C.Spares fun n => Expr.allSpare n arguments)

include hs

theorem callFree (name : String) (position : Position) :
    C.Relates Whatever (Eval.callFree setting runner name arguments position)
      (Eval.callFree setting' runner' name arguments position) := by
  refine (h.changeableArguments hs).bind fun found hfound => ?_
  obtain ⟨arguments, put⟩ := found
  dsimp only
  rw [h.functions]
  split
  · exact relates_valueOf (h.callFunction _ _ _ _)
  · have hreply := h.higherOrder (some position) name arguments
    generalize Eval.higherOrder setting runner _ _ _ = reply at hreply
    generalize Eval.higherOrder setting' runner' _ _ _ = reply' at hreply
    cases hreply
    case' some hreply => refine hreply.bind fun reply _ => ?_
    case' none => refine (h.callNative _ _ _).bind fun reply _ => ?_
    -- the first argument is changed, if it can be
    all_goals
      split
      · rename_i put changed hput
        exact (hfound put (Prod.mk.inj hput).1 changed).next (.pure trivial)
      · exact .pure trivial

theorem callPrinter (name : String) (position : Position) :
    C.Relates Whatever (Eval.callPrinter setting runner name arguments position)
      (Eval.callPrinter setting' runner' name arguments position) := by
  have hafter (text : String) : C.Relates Whatever
      (do
        write (setting.wordOutput name text position)
        return Datum.unit)
      (do
        write (setting'.wordOutput name text position)
        return Datum.unit) :=
    (h.print name text position).next (.pure trivial)
  refine (h.values hs).bind fun found _ => ?_
  split
  · exact (Relates.pure trivial).bind (q := Whatever) fun text _ => hafter text
  · exact (Relates.pure trivial).bind (q := Whatever) fun text _ => hafter text
  · refine (h.callNative _ _ _).bind fun reply _ => ?_
    split
    · exact (Relates.pure trivial).bind (q := Whatever) fun text _ => hafter text
    · exact .fail_bind _ _ _ _

theorem callFirst (position : Position) :
    C.Relates Whatever (Eval.callFirst setting runner arguments position)
      (Eval.callFirst setting' runner' arguments position) := by
  refine (h.values hs).bind fun found _ => ?_
  split
  · exact relates_valueOf (h.callPointer _ _ _ _)
  · exact .fail _ _
  · exact .fail _ _

end

theorem textArgument {e : Expr} (hs : C.Spares fun n => e.spares n) :
    C.Relates Whatever (Eval.textArgument runner e) (Eval.textArgument runner' e) := by
  refine (h.runs (.expr e) hs).bind fun value _ => ?_
  split
  · exact .pure trivial
  · exact .fail _ _

/-- Texts are evaluated only if no variable is hidden from them. -/
theorem evaluateText (hhidden : C.hidden = none) (text : String) (position : Position) :
    C.Relates Whatever (Eval.evaluateText runner text position)
      (Eval.evaluateText runner' text position) := by
  have hspares (statements : List Stmt) : C.Spares fun n => (Task.body statements).spares n := by
    intro n hn
    rw [hhidden] at hn
    cases hn
  unfold Eval.evaluateText
  split
  · exact .fail _ _
  · split
    · exact .fail_bind _ _ _ _
    · refine (h.runs _ (hspares _)).outcome.bind fun result _ => ?_
      split
      · exact .pure trivial
      · exact .ofOutcome fun _ _ => trivial

theorem call {name : String} {arguments : List Expr} {position : Position}
    (hs : C.Spares fun n => (Expr.call name arguments position).spares n) :
    C.Relates Whatever (Eval.call setting runner name arguments position)
      (Eval.call setting' runner' name arguments position) := by
  obtain ⟨hname, harguments⟩ := spares_and.1 hs
  unfold Eval.call
  split
  · exact h.callPrinter harguments _ _
  · exact h.callPrinter harguments _ _
  · exact h.callFirst harguments _
  · have hhidden : C.hidden = none :=
      Option.eq_none_iff_forall_not_mem.2 fun n hn =>
        absurd (hname n hn) (show ¬("eval" != "eval") = true by decide)
    exact (h.textArgument (spares_and.1 harguments).1).bind fun _ _ => h.evaluateText hhidden _ _
  · exact (h.textArgument (spares_and.1 harguments).1).bind fun _ _ => .pure trivial
  · obtain ⟨hfirst, hrest⟩ := spares_and.1 harguments
    refine (h.runs (.expr _) hfirst).bind fun value _ => ?_
    split
    · exact (h.values hrest).bind fun _ _ => .pure trivial
    · exact .fail _ _
  · exact (h.textArgument (spares_and.1 harguments).1).bind fun _ _ => C.isDefined _
  · obtain ⟨hfirst, hrest⟩ := spares_and.1 harguments
    rw [h.functions]
    refine (h.textArgument hfirst).bind fun name _ => (h.runs (.expr _) (spares_and.1 hrest).1).bind
      fun value _ => ?_
    split
    · exact .pure trivial
    · exact .fail _ _
  · exact relates_isShared (spares_and.1 harguments).1 _
  · exact (h.runs (.expr _) (spares_and.1 harguments).1).next (.pure trivial)
  · exact h.callFree harguments _ _
  · exact .signal _
  · exact (h.runs (.expr _) (spares_and.1 harguments).1).bind fun _ _ => .signal _
  · split
    · exact (h.values harguments).bind fun _ _ => .fail _ _
    · exact h.callFree harguments _ _

/-! ### Expressions -/

theorem truth {e : Expr} (hs : C.Spares fun n => e.spares n) :
    C.Relates Whatever (Eval.truth runner e) (Eval.truth runner' e) := by
  refine (h.runs (.expr e) hs).bind fun value _ => ?_
  split
  · exact .pure trivial
  · exact .fail _ _

theorem members {items : List (String × Expr)} (hs : C.Spares fun n => Expr.membersSpare n items) :
    C.Relates Whatever (Eval.members runner items) (Eval.members runner' items) := by
  induction items with
  | nil => exact .pure trivial
  | cons item rest ih =>
    obtain ⟨hitem, hrest⟩ := spares_and.1 hs
    exact (h.runs (.expr item.2) hitem).bind fun _ _ => (ih hrest).bind fun _ _ => .pure trivial

theorem expr {e : Expr} (hs : C.Spares fun n => e.spares n) :
    C.Relates Whatever (Eval.expr setting runner e) (Eval.expr setting' runner' e) := by
  cases e with
  | constant value position => exact .pure trivial
  | template parts position => exact (h.values hs).bind fun _ _ => .pure trivial
  | list items position => exact (h.values hs).bind fun _ _ => .pure trivial
  | map items position => exact (h.members hs).bind fun _ _ => .pure trivial
  | name name position => exact (relates_variableAt hs position).bind fun v _ => C.content v.value
  | subject position => exact C.subjectAt position
  | call name arguments position => exact h.call hs
  | apply operator operands position =>
    exact (h.values hs).bind fun values _ => relates_applyOperator operator values position
  | chain chainRoot links => exact h.follow (spares_and.1 hs).1 (spares_and.1 hs).2
  | and a b =>
    obtain ⟨ha, hb⟩ := spares_and.1 hs
    refine (h.truth ha).bind fun first _ => ?_
    split
    · exact (h.truth hb).bind fun _ _ => .pure trivial
    · exact .pure trivial
  | or a b =>
    obtain ⟨ha, hb⟩ := spares_and.1 hs
    refine (h.truth ha).bind fun first _ => ?_
    split
    · exact .pure trivial
    · exact (h.truth hb).bind fun _ _ => .pure trivial
  | coalesce a b =>
    obtain ⟨ha, hb⟩ := spares_and.1 hs
    refine (h.runs (.expr a) ha).bind fun value _ => ?_
    split
    · exact h.runs (.expr b) hb
    · exact .pure trivial
  | statement s => exact h.runs (.body [s]) (spares_and.2 ⟨hs, fun _ _ => rfl⟩)
  | function name captured position => exact (relates_capture hs).bind fun _ _ => .pure trivial

/-! ### Statements -/

theorem round {body : List Stmt} (hs : C.Spares fun n => Stmt.allSpare n body) :
    C.Relates Whatever (Eval.round runner body) (Eval.round runner' body) := by
  refine (h.runs (.body body) hs).block.outcome.bind fun result _ => ?_
  split
  · exact .pure trivial
  · exact (Relates.ofOutcome fun _ _ => trivial).next (.pure trivial)

theorem each {item : String} {counter : Option String} {source : Expr} {body : List Stmt}
    (hs : C.Spares fun n => (Stmt.each item counter source body).spares n) :
    C.Relates Whatever (Eval.each runner item counter source body)
      (Eval.each runner' item counter source body) := by
  obtain ⟨hs, hbody⟩ := spares_and.1 hs
  obtain ⟨hs, hsource⟩ := spares_and.1 hs
  obtain ⟨hitem, hcounter⟩ := spares_and.1 hs
  refine (h.runs (.expr source) hsource).bind fun value _ => ?_
  split
  · exact .fail _ _
  · refine relates_breakable (.through (fun place => .block ?_) _ _)
    refine (Relates.forM fun name hname => ?_).next ?_
    · exact C.declare (spares_all.1 hcounter name hname) _ _
    · exact (C.declare (spares_ne.1 hitem) _ _).next ((h.round hbody).next (.pure trivial))

theorem chosenCase {cases : List Case} (hs : C.Spares fun n => Case.allSpare n cases) :
    C.Relates (fun found => ∀ body, found = some body → C.Spares fun n => body.spares n)
      (Eval.chosenCase runner cases) (Eval.chosenCase runner' cases) := by
  induction cases with
  | nil => exact .pure fun _ hfound => (by cases hfound)
  | cons case rest ih =>
    obtain ⟨patterns, condition, body⟩ := case
    obtain ⟨hcase, hrest⟩ := spares_and.1 hs
    obtain ⟨hcondition, hbody⟩ := spares_and.1 hcase
    refine (h.truth hcondition).bind fun holds _ => ?_
    split
    · exact .pure fun _ hfound => Option.some.inj hfound ▸ hbody
    · exact ih hrest

theorem choose (value : Datum) {cases : List Case} {otherwise : Option Stmt}
    (hcases : C.Spares fun n => Case.allSpare n cases)
    (hotherwise : C.Spares fun n => Stmt.optionSpares n otherwise) :
    C.Relates Whatever (Eval.choose runner value cases otherwise)
      (Eval.choose runner' value cases otherwise) := by
  have hfilter (test : Case → Bool) : C.Spares fun n => Case.allSpare n (cases.filter test) :=
    fun n hn => Case.allSpare_iff.2 fun c hc =>
      Case.allSpare_iff.1 (hcases n hn) c ((List.mem_filter.1 hc).1)
  refine (h.chosenCase ?_).bind fun found hfound => ?_
  · split
    · exact hfilter _
    · exact hfilter _
  · split
    · rename_i body hbody
      refine h.runs _ (spares_and.2 ⟨?_, fun _ _ => rfl⟩)
      rcases Option.or_eq_some_iff.1 hbody with hbody | ⟨-, hbody⟩
      · exact hfound body hbody
      · rw [hbody] at hotherwise
        exact hotherwise
    · exact .pure trivial

theorem attempt {body : List Stmt} {caught : Option String} {handler : List Stmt}
    (hs : C.Spares fun n => (Stmt.attempt body caught handler).spares n) :
    C.Relates Whatever (Eval.attempt runner body caught handler)
      (Eval.attempt runner' body caught handler) := by
  obtain ⟨hs, hhandler⟩ := spares_and.1 hs
  obtain ⟨hbody, hcaught⟩ := spares_and.1 hs
  refine (h.runs (.body body) hbody).block.outcome.bind fun result _ => ?_
  split
  · split
    · exact .signal _
    · refine Relates.bind (Relates.outcome (.block (q := Whatever) ?_)) fun result _ => ?_
      · refine (Relates.forM fun name hname => ?_).next (h.runs _ hhandler)
        exact C.declare (spares_all.1 hcaught name hname) _ _
      · split
        · exact .pure trivial
        · exact .signal _
        · exact .signal _
  · exact .ofOutcome fun _ _ => trivial

theorem optional {e : Option Expr} (hs : C.Spares fun n => Expr.optionSpares n e) :
    C.Relates Whatever (Eval.optional runner e) (Eval.optional runner' e) := by
  cases e with
  | none => exact .pure trivial
  | some e => exact h.runs (.expr e) hs

theorem assign {target : Expr} {value : Expr} (htarget : C.Spares fun n => target.spares n)
    (hvalue : C.Spares fun n => value.spares n) (operator : Option String) (position : Position) :
    C.Relates Whatever (Eval.assign setting runner target operator value position)
      (Eval.assign setting' runner' target operator value position) := by
  refine (h.runs (.expr value) hvalue).bind fun value _ => ?_
  dsimp only
  split
  · exact h.changeAt (spares_and.1 htarget).1 (spares_and.1 htarget).2 fun old =>
      relates_assigned operator value position old
  · refine (h.root htarget).bind fun place hplace => ?_
    split
    · exact .fail_bind _ _ _ _
    · exact (relates_assigned _ _ _ _).bind fun value _ => hplace value

theorem stmt {s : Stmt} (hs : C.Spares fun n => s.spares n) :
    C.Relates Whatever (Eval.stmt setting runner s) (Eval.stmt setting' runner' s) := by
  cases s with
  | empty => exact .pure trivial
  | expr e => exact h.runs (.expr e) hs
  | declare name value constant position =>
    obtain ⟨hname, hvalue⟩ := spares_and.1 hs
    exact (h.optional hvalue).bind fun _ _ =>
      (C.declare (spares_ne.1 hname) _ _).next (.pure trivial)
  | assign target operator value position =>
    obtain ⟨htarget, hvalue⟩ := spares_and.1 hs
    exact (h.assign htarget hvalue operator position).next (.pure trivial)
  | block body => exact (h.runs (.body body) hs).block
  | branch condition yes no =>
    obtain ⟨hs, hno⟩ := spares_and.1 hs
    obtain ⟨hcondition, hyes⟩ := spares_and.1 hs
    refine (h.truth hcondition).bind fun chosen _ => (h.runs _ ?_).block
    cases chosen
    · exact hno
    · exact hyes
  | switch subject cases otherwise =>
    obtain ⟨hs, hotherwise⟩ := spares_and.1 hs
    obtain ⟨hsubject, hcases⟩ := spares_and.1 hs
    exact (h.runs (.expr subject) hsubject).bind fun value _ => h.choose value hcases hotherwise
  | loop condition body =>
    obtain ⟨hcondition, hbody⟩ := spares_and.1 hs
    -- one round of a loop, which its condition may end
    have hround (goesOn : Bool) : C.Relates Whatever
        (do
          if goesOn then Eval.round runner body
          return goesOn)
        (do
          if goesOn then Eval.round runner' body
          return goesOn) := by
      split
      · exact (h.round hbody).next (.pure trivial)
      · exact .pure trivial
    cases condition with
    | none =>
      exact relates_breakable
        (.again ((Relates.pure trivial).bind (q := Whatever) fun _ _ => hround _) _)
    | some e =>
      exact relates_breakable (.again ((h.truth hcondition).bind fun goesOn _ => hround goesOn) _)
  | again body condition wanted =>
    obtain ⟨hbody, hcondition⟩ := spares_and.1 hs
    exact relates_breakable (.again ((h.round hbody).next
      ((h.truth hcondition).bind fun _ _ => .pure trivial)) _)
  | each item counter source body => exact h.each hs
  | leave value => exact (h.optional hs).bind fun _ _ => .signal _
  | next => exact .signal _
  | answer value => exact (h.optional hs).bind fun _ _ => .signal _
  | raise value position => exact (h.optional hs).bind fun _ _ => .fail _ _
  | attempt body caught handler => exact h.attempt hs
  | fetch path position =>
    refine (h.textArgument hs).bind fun path _ => (h.hasModule path).bind fun found _ => ?_
    split
    · exact .pure trivial
    · exact .fail _ _

theorem body {statements : List Stmt} (hs : C.Spares fun n => Stmt.allSpare n statements) :
    C.Relates Whatever (Eval.body setting runner statements)
      (Eval.body setting' runner' statements) := by
  induction statements with
  | nil => exact .pure trivial
  | cons s rest ih =>
    obtain ⟨hfirst, hrest⟩ := spares_and.1 hs
    cases rest with
    | nil => exact h.stmt hfirst
    | cons s' rest => exact (h.stmt hfirst).next (ih hrest)

/-- **One step of the interpreter** preserves the relation. -/
theorem step {task : Task} (hs : C.Spares fun n => task.spares n) :
    C.Relates Whatever (Eval.step setting runner task) (Eval.step setting' runner' task) := by
  cases task with
  | expr e => exact h.expr hs
  | body statements => exact h.body hs

end Lifts
end Rulebook.Script.Eval.Congruence
