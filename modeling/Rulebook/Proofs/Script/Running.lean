import Rulebook.Script.Interpreter
import Rulebook.Proofs.Script.Tidying

/-!
# Running statements

Evaluations obey the laws of a monad. Statements whose values are not wanted are run by `inOrder`, and
the functions that every script relies on come to what the language says, in a setting whose functions
do not hide them.
-/

namespace Rulebook.Script.Eval

section

variable {α β γ : Type}

theorem map_id (m : Eval α) : id <$> m = m := by
  funext s
  change bind m pure s = m s
  unfold bind
  split <;> rename_i h <;> exact h.symm

theorem bind_bind (m : Eval α) (f : α → Eval β) (g : β → Eval γ) :
    bind (bind m f) g = bind m fun a => bind (f a) g := by
  funext s
  unfold bind
  rcases m s with ⟨_ | _, s⟩ <;> rfl

theorem bind_of_ok {m : Eval α} {s t : State} {a : α} (h : m s = (.ok a, t)) (f : α → Eval β) :
    (m >>= f) s = f a t := by
  change bind m f s = _
  rw [bind, h]

theorem bind_of_error {m : Eval α} {s t : State} {reason : Signal} (h : m s = (.error reason, t))
    (f : α → Eval β) : (m >>= f) s = (.error reason, t) := by
  change bind m f s = _
  rw [bind, h]

theorem bind_of_eq {m m' : Eval α} {s t : State} (h : m s = m' t) (f : α → Eval β) :
    (m >>= f) s = (m' >>= f) t := by
  change bind m f s = bind m' f t
  rw [bind, h]
  rfl

/-- Two evaluations in a row have a value if both have one. -/
theorem ok_of_bind {m : Eval α} {f : α → Eval β} {s t : State} {b : β}
    (h : (m >>= f) s = (.ok b, t)) : ∃ a u, m s = (.ok a, u) ∧ f a u = (.ok b, t) := by
  change bind m f s = _ at h
  unfold bind at h
  split at h
  · rename_i a u hm
    exact ⟨a, u, hm, h⟩
  · cases h

instance : LawfulMonad Eval := LawfulMonad.mk' Eval map_id (fun _ _ => rfl) bind_bind

/-- Evaluations one after the other; their values are not wanted. -/
def inOrder (m : α → Eval β) : List α → Eval Unit
  | [] => return ()
  | a :: rest => do
    let _ ← m a
    inOrder m rest

theorem inOrder_congr {m m' : α → Eval β} {items : List α} (h : ∀ a ∈ items, m a = m' a) :
    inOrder m items = inOrder m' items := by
  induction items with
  | nil => rfl
  | cons a rest ih =>
    rw [inOrder, inOrder, h a (.head _), ih fun a ha => h a (.tail _ ha)]

theorem inOrder_append (m : α → Eval β) (a b : List α) :
    inOrder m (a ++ b) = (do inOrder m a; inOrder m b) := by
  induction a with
  | nil => rw [List.nil_append, inOrder, pure_bind]
  | cons first a ih => rw [List.cons_append, inOrder, ih, inOrder, bind_assoc]

theorem inOrder_flatMap {δ : Type} (m : α → Eval β) (f : δ → List α) (items : List δ) :
    inOrder m (items.flatMap f) = inOrder (fun item => inOrder m (f item)) items := by
  induction items with
  | nil => rfl
  | cons item rest ih => rw [List.flatMap_cons, inOrder_append, ih, inOrder]

end

section

variable (setting : Setting) (self : Runner)

/-- Only the value of the last statement is wanted. -/
theorem body_concat (statements : List Stmt) (last : Stmt) :
    body setting self (statements ++ [last]) = (do
      inOrder (stmt setting self) statements
      stmt setting self last) := by
  induction statements with
  | nil => rw [List.nil_append, inOrder, pure_bind, body]
  | cons s rest ih =>
    have hbody : body setting self (s :: (rest ++ [last])) =
        (do let _ ← stmt setting self s; body setting self (rest ++ [last])) := by
      cases rest <;> rfl
    rw [List.cons_append, hbody, ih, inOrder, bind_assoc]

/-- Statements behind one that has no value. -/
theorem body_append (statements rest : List Stmt) {last : Stmt} {m : Eval Unit}
    (h : stmt setting self last = (do m; return .unit)) :
    body setting self (statements ++ last :: rest) = (do
      inOrder (stmt setting self) (statements ++ [last])
      body setting self rest) := by
  rcases rest.eq_nil_or_concat with rfl | ⟨rest, final, rfl⟩
  · rw [body_concat, inOrder_append, inOrder, inOrder, h, body]
    simp only [bind_assoc, pure_bind]
  · rw [List.concat_eq_append, ← List.cons_append, ← List.append_assoc, body_concat, body_concat,
      List.append_cons, inOrder_append]
    simp only [bind_assoc]

theorem body_unwanted (statements : List Stmt) :
    (do let _ ← body setting self statements) = inOrder (stmt setting self) statements := by
  rcases statements.eq_nil_or_concat with rfl | ⟨rest, last, rfl⟩
  · rfl
  · rw [List.concat_eq_append, body_concat, inOrder_append, bind_assoc, inOrder]
    rfl

/-! ### Calls -/

variable {setting : Setting} {self : Runner} {name : String} {position : Position} {n : Nat}

/-- The content of the variable of a name. -/
def lookUp (name : String) (position : Position) : Eval Datum := do
  content (← variableAt name position).value

theorem run_statement (setting : Setting) (n : Nat) (s : Stmt) :
    run setting (n + 1) (.body [s]) = stmt setting (run setting n) s := rfl

theorem run_name (setting : Setting) (n : Nat) (name : String) (position : Position) :
    run setting (n + 1) (.expr (.name name position)) = lookUp name position := rfl

/-- How an argument can be changed does not matter if it is not changed. -/
theorem changeableArguments_one (e : Expr) {k : List Datum × Option (Datum → Eval Unit) → Eval Datum}
    {steady : Datum → Eval Datum} (hk : ∀ value put, k ([value], put) = steady value) :
    changeableArguments (run setting (n + 1)) [e] >>= k =
      (do steady (← run setting (n + 1) (.expr e))) := by
  have hvalues (e : Expr) : values (run setting (n + 1)) [e] =
      (do return [← run setting (n + 1) (.expr e)]) := rfl
  cases e with
  | name name position =>
    rw [run_name, lookUp]
    simp only [changeableArguments, values, collect, bind_assoc]
    -- the value of a name is the content of its variable
    change (do
      let v ← variableAt name position
      let value ← content v.value
      k ([value], _)) = _
    simp only [hk]
  | subject position =>
    simp only [changeableArguments, values, collect, bind_assoc]
    change (do
      let value ← subjectAt position
      k ([value], some fun value => modify fun s => { s with subject := some value })) = _
    simp only [hk]
    rfl
  | _ =>
    simp only [changeableArguments, hvalues, bind_assoc, pure_bind, hk]

/-- A function of the language that takes one value and leaves it as it is. -/
theorem callFree_one (hfunction : setting.function? name 1 = none)
    (hhigher : ∀ value, higherOrder setting (run setting (n + 1)) (some position) name [value] = none)
    (hsteady : ∀ value, callNative setting name [value] (some position) =
      (do return ⟨(← callNative setting name [value] (some position)).value, none⟩)) (e : Expr) :
    callFree setting (run setting (n + 1)) name [e] position = (do
      let value ← run setting (n + 1) (.expr e)
      return (← callNative setting name [value] (some position)).value) := by
  refine changeableArguments_one e fun value put => ?_
  simp only [List.length_cons, List.length_nil, Nat.zero_add, hfunction]
  rw [hhigher value]
  dsimp only
  rw [hsteady value, bind_assoc, bind_assoc]
  cases put <;> rfl

theorem run_truthy (h : setting.function? "truthy" 1 = none) (e : Expr) :
    run setting (n + 2) (.expr (.call "truthy" [e] position)) =
      (do return .bool (← run setting (n + 1) (.expr e)).isTruthy) := by
  have hhigher (value : Datum) :
      higherOrder setting (run setting (n + 1)) (some position) "truthy" [value] = none := by
    cases value <;> rfl
  exact callFree_one h hhigher (fun _ => rfl) e

theorem run_stringify (h : setting.function? "json_stringify" 1 = none) (e : Expr) :
    run setting (n + 2) (.expr (.call "json_stringify" [e] position)) =
      (do return .text (← run setting (n + 1) (.expr e)).toJson.compact) := by
  have hhigher (value : Datum) :
      higherOrder setting (run setting (n + 1)) (some position) "json_stringify" [value] = none := by
    cases value <;> rfl
  exact callFree_one h hhigher (fun _ => rfl) e

/-- The value that a JSON text denotes in a script. -/
def parse (text : String) (position : Position) : Eval Datum :=
  match Datum.readJson? text with
  | some value => return value
  | none =>
    fail (.thrown (.text "Invalid JSON: the text does not follow the grammar")) position

theorem parse_of_some {text : String} {value : Datum} (h : Datum.readJson? text = some value)
    (position : Position) : parse text position = return value := by rw [parse, h]

theorem parse_of_none {text : String} (h : Datum.readJson? text = none) (position : Position) :
    parse text position =
      fail (.thrown (.text "Invalid JSON: the text does not follow the grammar")) position := by
  rw [parse, h]

theorem callNative_parse (text : String) :
    callNative setting "json_parse" [.text text] (some position) =
      (do return ⟨← parse text position, none⟩) := by
  change ofResult _ (Except.map _ (match Datum.readJson? text with | some _ => _ | none => _)) = _
  unfold parse
  cases Datum.readJson? text <;> rfl

theorem callNative_parse_of_ne {value : Datum} (h : ∀ s, value ≠ .text s) :
    callNative setting "json_parse" [value] (some position) =
      fail (.unknownFunction "json_parse" [value.typeName]) position := by
  have hfind : Library.find "json_parse" [value] = none := by
    cases value with
    | text s => exact absurd rfl (h s)
    | _ => rfl
  have hhost : callHost setting "json_parse" [value] = none := by
    unfold callHost
    cases setting.sandbox.mode <;> cases value <;> rfl
  unfold callNative
  rw [hfind, hhost]
  cases setting.sandbox.actions.get? "json_parse" <;> rfl

theorem run_parse (h : setting.function? "json_parse" 1 = none) (e : Expr) :
    run setting (n + 2) (.expr (.call "json_parse" [e] position)) = (do
      match ← run setting (n + 1) (.expr e) with
      | .text s => parse s position
      | value => fail (.unknownFunction "json_parse" [value.typeName]) position) := by
  have hhigher (value : Datum) :
      higherOrder setting (run setting (n + 1)) (some position) "json_parse" [value] = none := by
    cases value <;> rfl
  refine (callFree_one h hhigher (fun value => ?_) e).trans ?_
  · cases value with
    | text s =>
      simp only [callNative_parse, bind_assoc, pure_bind]
    | _ =>
      rw [callNative_parse_of_ne (by rintro s ⟨⟩)]
      rfl
  · congr
    funext value
    cases value with
    | text s =>
      rw [callNative_parse, bind_assoc]
      exact bind_pure _
    | _ =>
      rw [callNative_parse_of_ne (by rintro s ⟨⟩)]
      rfl

/-! ### Assignments and blocks -/

/-- Gives the variable of a name a new value. -/
def setVariable (name : String) (value : Datum) (position : Position) : Eval Unit := do
  let v ← variableAt name position
  if v.constant then fail (.constant name) position else store v value

theorem content_unwanted {α : Type} (value : Datum) (m : Eval α) :
    (do
      let _ ← content value
      m) = m := by
  funext s
  cases value <;> rfl

theorem stmt_assign (name : String) (value : Expr) (target place : Position) :
    stmt setting self (.assign (.name name target) none value place) = (do
      setVariable name (← self (.expr value)) target
      return .unit) := by
  simp only [setVariable, stmt, assign, root, assigned, bind_assoc, pure_bind]
  refine bind_congr fun value => bind_congr fun v => ?_
  rw [content_unwanted]
  cases v.constant <;> rfl

theorem block_unwanted {α : Type} (m : Eval α) :
    (do let _ ← block m) = block (do let _ ← m) := by
  funext s
  change bind (block m) (fun _ => pure ()) s = block (bind m fun _ => pure ()) s
  unfold block bind
  dsimp only
  rcases m s with ⟨_ | _, s⟩ <;> rfl

/-- The variables of a block go out of scope. -/
theorem block_of_scope {α : Type} {m : Eval α} {s t : State} {result : Except Signal α}
    {outer : List Variable} (inner : List Variable) (h : m s = (result, t))
    (ht : t.scope = inner ++ outer)
    (hlength : outer.length = s.scope.length) : block m s = (result, { t with scope := outer }) := by
  unfold block
  rw [h]
  dsimp only
  rw [ht, List.length_append, hlength, Nat.add_sub_cancel, List.drop_left]

theorem block_pure {α : Type} (a : α) : block (return a) = return a :=
  funext fun s => by
    change (Except.ok a, { s with scope := s.scope.drop (s.scope.length - s.scope.length) }) =
      (Except.ok a, s)
    rw [Nat.sub_self, List.drop_zero]

/-- A branch that is taken if a value is truthy, in front of other statements. -/
theorem inOrder_branch (h : setting.function? "truthy" 1 = none) (condition : Expr)
    (place : Position) (yes : List Stmt) :
    inOrder (stmt setting (run setting (n + 3)))
        (Stmt.kept [.branch (.call "truthy" [condition] place) yes []]) = (do
      let value ← run setting (n + 2) (.expr condition.simplify)
      if value.isTruthy then
        block do
          let _ ← run setting (n + 3)
            (.body (Stmt.tidy true true (Stmt.simplifyAll true yes)))) := by
  have hkept : Stmt.kept [.branch (.call "truthy" [condition] place) yes []] =
      ((Stmt.flatten [Stmt.ofBranch true (.call "truthy" [condition.simplify] place)
        (Stmt.tidy true true (Stmt.simplifyAll true yes)) []]).filter fun s => !s.isPure) := rfl
  have hcondition : run setting (n + 3) (.expr (.call "truthy" [condition.simplify] place)) =
      (do return .bool (← run setting (n + 2) (.expr condition.simplify)).isTruthy) :=
    run_truthy h condition.simplify
  rw [hkept]
  generalize Stmt.tidy true true (Stmt.simplifyAll true yes) = yes
  cases yes with
  | nil =>
    -- a branch without statements is no more than its condition
    change inOrder _ [Stmt.expr (.call "truthy" [condition.simplify] place)] = _
    simp only [inOrder, stmt, hcondition, bind_assoc, pure_bind]
    refine bind_congr fun value => ?_
    cases value.isTruthy
    · rfl
    · exact (block_pure ()).symm
  | cons s rest =>
    change inOrder _ [Stmt.branch (.call "truthy" [condition.simplify] place) (s :: rest) []] = _
    simp only [inOrder, stmt, truth, hcondition, bind_assoc, pure_bind]
    refine bind_congr fun value => ?_
    rw [block_unwanted]
    cases value.isTruthy
    · exact block_pure ()
    · rfl

/-! ### Errors that are caught -/

variable {s t u : State} {body handler : List Stmt} {value : Datum}

theorem bind_outcome {α β : Type} {m : Eval α} {result : Except Signal α} (h : m s = (result, t))
    (k : Except Signal α → Eval β) : (outcome m >>= k) s = k result t := by
  change bind (outcome m) k s = _
  unfold bind outcome
  rw [h]

theorem attempt_of_ok {caught : Option String}
    (h : block (self (.body body)) s = (.ok value, t)) :
    attempt self body caught handler s = (.ok value, t) :=
  bind_outcome h _

/-- An error is caught by statements that answer. -/
theorem attempt_of_error {err : Error} {caught : String}
    (h : block (self (.body body)) s = (.error (.error err), t))
    (hfatal : err.problem.isFatal = false)
    (hhandler : block (do
      declare caught err.caught false
      self (.body handler)) t = (.error (.answered value), u)) :
    attempt self body (some caught) handler s = (.error (.answered value), u) := by
  refine (bind_outcome h _).trans ?_
  dsimp only
  rw [hfatal]
  exact bind_outcome hhandler _

/-! ### Functions of a script -/

/-- How the body of a function ends: an answer is its value. -/
def settle (m : Eval Datum) : Eval Datum := fun s =>
  match m s with
  | (.error (.answered value), t) => (.ok value, t)
  | ended => ended

theorem settle_of_answered {m : Eval Datum} (h : m s = (.error (.answered value), t)) :
    settle m s = (.ok value, t) := by
  rw [settle, h]

theorem settle_of_eq {m m' : Eval Datum} (h : m s = m' t) : settle m s = settle m' t := by
  rw [settle, settle, h]

theorem settle_answer (m : Eval Datum) :
    settle (do signal (.answered (← m))) = settle m := by
  funext s
  change settle (bind m _) s = _
  unfold settle bind
  rcases m s with ⟨reason | value, t⟩
  · rfl
  · rfl

/-- The state in which the body of a function begins. -/
def enter (parameters : List String) (arguments : List Datum) (subject : Option Datum) (s : State) :
    State :=
  { s with
    scope := (parameters.zip arguments).map fun (name, value) => ⟨name, value, false⟩
    subject, calls := s.calls + 1 }

/-- A call of a function, step by step. -/
theorem callFunction_apply (self : Runner) (f : Function) (arguments : List Datum)
    (subject : Option Datum) (call : Option Position) (s : State) :
    callFunction self f arguments subject call s =
      if maxCalls ≤ s.calls then
        (.ok (.error (.error { problem := .tooManyCalls, position := call }), subject), s)
      else
        let (result, after) := settle (self (.body f.body)) (enter f.parameters arguments subject s)
        let outcome := match result with
          | .error (.error err) => .error (.error (err.leaving call))
          | result => result
        (.ok (outcome, after.subject),
          { after with scope := s.scope, subject := s.subject, calls := s.calls }) := by
  unfold callFunction settle enter
  split
  · rfl
  · dsimp only
    rcases self (.body f.body) _ with ⟨(_ | _) | _, t⟩ <;> rfl

/-- What a function comes to depends on how its body ends, and not on the variables that the body
leaves behind. -/
theorem callFunction_congr {self self' : Runner} {f g : Function} {arguments : List Datum}
    {subject : Option Datum} {call : Option Position} (hparameters : f.parameters = g.parameters)
    (h : ∀ s, ∃ scope, settle (self (.body f.body)) (enter g.parameters arguments subject s) =
      ((settle (self' (.body g.body)) (enter g.parameters arguments subject s)).1,
        { (settle (self' (.body g.body)) (enter g.parameters arguments subject s)).2 with scope })) :
    callFunction self f arguments subject call = callFunction self' g arguments subject call := by
  funext s
  obtain ⟨scope, h⟩ := h s
  rw [callFunction_apply, callFunction_apply, hparameters, h]

/-! ### Actions -/

/-- The language has no function of its own that stands in for a name and two values. -/
structure Unhidden (setting : Setting) (name : String) : Prop where
  higherOrder : ∀ self position a b, Eval.higherOrder setting self position name [a, b] = none
  library : ∀ a b, Library.find name [a, b] = none
  host : ∀ a b, callHost setting name [a, b] = none

theorem call_of_not_functionWord (h : name ∉ Token.functionWords) (a b : Expr) :
    call setting self name [a, b] position = callFree setting self name [a, b] position := by
  have hfixed : isFixedWord name = false := by
    rw [← Bool.not_eq_true]
    intro hname
    have hmem := List.mem_of_elem_eq_true hname
    have hwords : ∀ word ∈ ["type_of", "eval", "Fn", "call", "curry", "is_def_var", "is_def_fn",
        "is_shared"], word ∈ Token.functionWords := by decide
    exact h (hwords name hmem)
  unfold call
  split
  all_goals first
    | exact absurd (by decide) h
    | (rename_i hlength; cases hlength)
    | skip
  rw [hfixed]
  rfl

theorem run_action {action : Action} {p q : Position} (hname : name ∉ Token.functionWords)
    (hfunction : setting.function? name 2 = none) (h : Unhidden setting name)
    (haction : setting.sandbox.actions.get? name = some action) :
    run setting (n + 2) (.expr (.call name [.name "document" p, .name "input" q] position)) = (do
      let input ← lookUp "input" q
      let document ← lookUp "document" p
      callAction name action document input (some position)) := by
  have hnative (document input : Datum) : callNative setting name [document, input] (some position) =
      (do return ⟨← callAction name action document input (some position), none⟩) := by
    unfold callNative
    rw [h.library, h.host, haction]
  change call setting (run setting (n + 1)) name _ position = _
  rw [call_of_not_functionWord hname]
  have hvalues : values (run setting (n + 1)) [.name "input" q] =
      (do return [← lookUp "input" q]) := rfl
  unfold callFree
  simp only [changeableArguments, hvalues, bind_assoc, pure_bind, List.length_cons, List.length_nil,
    hfunction, h.higherOrder, hnative]
  simp only [lookUp, bind_assoc]
  refine bind_congr fun _ => bind_congr fun input => bind_congr fun v => bind_congr fun document =>
    (bind_congr fun value => ?_).trans (bind_pure _)
  split
  · rename_i hreply
    cases (Prod.mk.inj hreply).2
  · rfl

/-! ### Words for functions of the language -/

/-- The call of a printer leaves nothing behind. -/
theorem value_of_callPrinter {arguments : List Expr} {s t : State} {value : Datum}
    (h : callPrinter setting self name arguments position s = (.ok value, t)) : value = .unit := by
  have hdone {text : String} {u : State} (h : (do
      write (setting.wordOutput name text position)
      return Datum.unit : Eval Datum) u = (.ok value, t)) : value = .unit := by
    cases h
    rfl
  unfold callPrinter at h
  obtain ⟨found, u, -, h⟩ := ok_of_bind h
  dsimp only at h
  split at h
  · exact hdone h
  · exact hdone h
  · -- a registered action has to answer with a text
    obtain ⟨⟨answer, changed⟩, v, -, h⟩ := ok_of_bind h
    cases answer with
    | text text => exact hdone h
    | _ => cases h

/-- A word for a function, called with two variables, comes to nothing or a truth value if it comes to
a value, unless the first variable is a function. -/
theorem value_of_functionWord {x y : String} {p q : Position} {s t : State} {value : Datum}
    (hname : name ∈ Token.functionWords) (hsubject : name ≠ "this")
    (h : run setting (n + 2) (.expr (.call name [.name x p, .name y q] position)) s = (.ok value, t)) :
    value = .unit ∨ (∃ b, value = .bool b) ∨
      ∃ f bound u, lookUp x p s = (.ok (.function f bound), u) := by
  change call setting (run setting (n + 1)) name _ position s = _ at h
  -- a word that does not take two arguments fails
  have hfixed {problem : List Datum → Problem} {a : Prop} (h : (do
      let arguments ← values (run setting (n + 1)) [.name x p, .name y q]
      fail (problem arguments) position : Eval Datum) s = (.ok value, t)) : a := by
    obtain ⟨arguments, u, -, h⟩ := ok_of_bind h
    cases h
  simp only [Token.functionWords, List.mem_cons, List.not_mem_nil, or_false] at hname
  rcases hname with rfl | rfl | rfl | rfl | rfl | rfl | rfl | rfl | rfl | rfl | rfl
  · exact .inl (value_of_callPrinter h)
  · exact .inl (value_of_callPrinter h)
  · exact hfixed h
  · exact hfixed h
  · exact hfixed h
  · -- `call` takes a function first
    obtain ⟨arguments, u, hvalues, h⟩ := ok_of_bind h
    obtain ⟨first, v, hfirst, hvalues⟩ := ok_of_bind hvalues
    obtain ⟨rest, w, -, hvalues⟩ := ok_of_bind hvalues
    cases hvalues
    cases first with
    | function f bound => exact .inr (.inr ⟨f, bound, v, hfirst⟩)
    | _ => cases h
  · -- and so does `curry`
    obtain ⟨first, u, hfirst, h⟩ := ok_of_bind h
    cases first with
    | function f bound => exact .inr (.inr ⟨f, bound, u, hfirst⟩)
    | _ => cases h
  · exact absurd rfl hsubject
  · exact hfixed h
  · -- `is_def_fn` says whether a function is declared
    obtain ⟨text, u, -, h⟩ := ok_of_bind h
    obtain ⟨count, v, -, h⟩ := ok_of_bind h
    cases count with
    | int count =>
      cases h
      exact .inr (.inl ⟨_, rfl⟩)
    | _ => cases h
  · exact hfixed h

end

end Rulebook.Script.Eval
