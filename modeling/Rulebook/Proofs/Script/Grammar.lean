import Rulebook.Proofs.Script.Frame

/-!
# What the grammar leaves alone

Every reader of the grammar extends itself: what it makes of some tokens does not depend on what
comes after them. The composite readers are given the readers of their parts, so this is shown for
each of them from the same of the parts (`Parts`), and for all expressions and statements by
induction on the depth:

* `extends_readExpr`: an expression that is read to the end of some tokens with one of them left is
  read in the same way before other tokens;
* `extends_readStmt`: so is a statement, and one that ends itself may take all of the tokens, unless
  a second branch comes next.
-/

namespace Rulebook.Script.Reader

section

variable {α : Type} {n n' : Nat} {closing : α → Prop}

/-! ### Names in scope -/

theorem extends_bindName (name : String) (constant : Bool) :
    Extends always n n' (bindName name constant) (bindName name constant) :=
  extends_modify (fun r => { r with locals := (name, constant) :: r.locals }) (fun _ _ => rfl)
    fun _ _ => rfl

theorem extends_noteUse (name : String) (position : Position) :
    Extends always n n' (noteUse name position) (noteUse name position) := by
  refine extends_modify _ (fun s tokens => ?_) fun s before => ?_
  · unfold Reading.withTokens
    cases (s.locals.lookup name).isSome || (s.unbound.lookup name).isSome <;> simp
  · unfold Reading.withFunctions
    cases (s.locals.lookup name).isSome || (s.unbound.lookup name).isSome <;> simp

theorem extends_setLocals (locals : List (String × Bool)) :
    Extends always n n' (modify fun r => { r with locals }) (modify fun r => { r with locals }) :=
  extends_modify (fun r => { r with locals }) (fun _ _ => rfl) fun _ _ => rfl

theorem extends_setInLoop (inLoop : Bool) :
    Extends always n n' (modify fun r => { r with inLoop }) (modify fun r => { r with inLoop }) :=
  extends_modify (fun r => { r with inLoop }) (fun _ _ => rfl) fun _ _ => rfl

/-- A reader whose result is handed on after a change. -/
theorem Extends.after {r r' : Reader α} {change change' : Reader Unit}
    (h : Extends closing n n' r r') (hc : Extends always n n' change change') :
    Extends closing n n' (do let a ← r; change; return a) (do let a ← r'; change'; return a) := by
  refine h.bindClosing (fun a => ?_) fun {a t b u} hb hclosing _ => ?_
  · exact hc.bindClosing (fun _ => .pure _) fun _ _ _ => .inl trivial
  · obtain ⟨_, _, _, hb⟩ := gives_bind.1 hb
    obtain ⟨rfl, -⟩ := gives_pure.1 hb
    exact .inl hclosing

theorem extends_addFunction (f : Function) (hf : f.IsAnonymous) :
    Extends always n n'
      (modify fun r => { r with anonymous := r.anonymous + 1, functions := r.functions ++ [f] })
      (modify fun r => { r with anonymous := r.anonymous + 1, functions := r.functions ++ [f] }) := by
  refine .modify (fun r => { r with
    anonymous := r.anonymous + 1, functions := r.functions ++ [f] }) (fun _ _ => rfl)
      [f] (fun g hg => ?_) fun _ _ => rfl
  rw [List.mem_singleton.1 hg]
  exact hf

theorem ExtendsTaking.after {r r' : Reader α} {change change' : Reader Unit}
    (h : ExtendsTaking closing n n' r r') (hc : Extends always n n' change change') :
    ExtendsTaking closing n n' (do let a ← r; change; return a)
      (do let a ← r'; change'; return a) :=
  ⟨h.toExtends.after hc, h.takes.bind_left fun _ => hc.forward.bind fun _ => .pure _⟩

theorem extends_inScope {r r' : Reader α} (h : ExtendsTaking closing n n' r r') :
    ExtendsTaking closing n n' (inScope r) (inScope r') :=
  .get (fun _ => (h.after (extends_setLocals _)).forward_takes) (fun _ _ => rfl)
    fun _ _ _ _ _ hn hn' => ((h.of_le hn hn').after (extends_setLocals _)).toExtends

theorem extends_inLoop {r r' : Reader α} (h : ExtendsTaking closing n n' r r') :
    ExtendsTaking closing n n' (inLoop r) (inLoop r') := by
  have inside (outer : Bool) : ExtendsTaking closing n n'
      (do modify fun r => { r with inLoop := true }
          let a ← r
          modify fun r => { r with inLoop := outer }
          return a)
      (do modify fun r => { r with inLoop := true }
          let a ← r'
          modify fun r => { r with inLoop := outer }
          return a) :=
    .andThen (extends_setInLoop true) fun _ => h.after (extends_setInLoop outer)
  exact .get (fun _ => (inside _).forward_takes) (fun _ _ => rfl) fun _ _ _ _ _ hn hn' =>
    (inside _).toExtends.of_le hn hn'

theorem gives_inFunction {parameters : List String} {r : Reader α}
    {result : α × List (String × Position)} : Gives (inFunction parameters r) s result t ↔
      ∃ inner, Gives r { s with
          locals := parameters.map (·, false), unbound := [], inLoop := false, inFunction := true }
        result.1 inner ∧ result.2 = inner.unbound ∧ t = { inner with
          locals := s.locals, unbound := s.unbound, inLoop := s.inLoop
          inFunction := s.inFunction } := by
  obtain ⟨a, unbound⟩ := result
  unfold inFunction
  rw [gives_bind_of_run (r := get) rfl, gives_bind_of_run (r := set _) rfl, gives_bind]
  constructor
  · rintro ⟨_, inner, hr, h⟩
    rw [gives_bind_of_run (r := get) rfl, gives_bind_of_run (r := set _) rfl, gives_pure] at h
    obtain ⟨h, rfl⟩ := h
    cases h
    exact ⟨inner, hr, rfl, rfl⟩
  · rintro ⟨inner, hr, rfl, rfl⟩
    exact ⟨a, inner, hr, gives_pure.2 ⟨rfl, rfl⟩⟩

theorem extends_inFunction {r r' : Reader α} (parameters : List String)
    (h : Extends closing n n' r r') :
    Extends (fun result => closing result.1) n n' (inFunction parameters r)
      (inFunction parameters r') := by
  refine ⟨⟨?_, ?_⟩, ?_⟩
  · intro s result t hresult
    obtain ⟨inner, hr, -, rfl⟩ := gives_inFunction.1 hresult
    exact ⟨(h.forward.later hr).tokens, (h.forward.later hr).functions⟩
  · intro s result t more hresult hmore before
    obtain ⟨inner, hr, hunbound, rfl⟩ := gives_inFunction.1 hresult
    exact gives_inFunction.2 ⟨_, h.forward.blind hr hmore before, hunbound, rfl⟩
  · intro s result t P M L hresult hs ht hn hn' M' hl
    obtain ⟨inner, hr, hunbound, rfl⟩ := gives_inFunction.1 hresult
    exact gives_inFunction.2 ⟨_, h.frame hr hs ht hn hn' hl, hunbound, rfl⟩

/-! ### Lists -/

theorem extends_itemsUpTo (close : String) {item item' : Reader α}
    (h : ∀ n n', ExtendsTaking never n n' item item') (fuel : Nat) :
    ∀ n n' fuel', n' < fuel' →
      Extends never n n' (itemsUpTo close item fuel) (itemsUpTo close item' fuel') := by
  induction fuel with
  | zero => exact fun _ _ _ _ => .fail _
  | succ fuel ih =>
    intro n n' fuel' hf
    obtain ⟨fuel', rfl⟩ : ∃ k, fuel' = k + 1 := ⟨fuel' - 1, by omega⟩
    have rest := Extends.fewer (n := n) ih hf
    refine (extends_accept close).bind fun yes => ?_
    split
    · exact .pure _
    · refine ((h n n').bindFewer fun first => ?_).toExtends
      refine (extends_accept close).bind fun yes => ?_
      split
      · exact .pure _
      · exact (extends_expect ",").toExtends.bind fun _ => rest.bind fun _ => .pure _

theorem extends_items (close : String) {item item' : Reader α}
    (h : ∀ n n', ExtendsTaking never n n' item item') :
    Extends never n n' (items close item) (items close item') :=
  .get (fun _ => (extends_itemsUpTo close h _ 0 0 1 Nat.zero_lt_one).forward) (fun _ _ => rfl)
    fun _ _ _ _ _ _ _ => extends_itemsUpTo close h _ _ _ _ (Reading.lt_length _ _ _)

theorem extends_checkDistinct (names : List String) :
    Extends always n n' (checkDistinct names) (checkDistinct names) := by
  unfold checkDistinct
  split
  · exact .fail _
  · exact .pure _

/-! ### Statements of a block -/

/-- The statements that nothing has to follow. -/
def Closes (statement : Stmt) : Prop := statement.endsItself = true ∨ statement = .empty

/-- What the readers of composite parts need to know of the readers of their parts. -/
structure Parts (expr expr' : Reader Expr) (stmt stmt' : Reader Stmt) : Prop where
  onExpr : ∀ n n', ExtendsTaking never n n' expr expr'
  onStmt : ∀ n n', ExtendsTaking Closes n n' stmt stmt'
  onIf : ∀ {s a t p rest}, Gives stmt s a t → s.tokens = (.word "if", p) :: rest → Closes a

/-- What follows a statement that does not end its block. -/
def afterStatement (rest : Reader (List Stmt)) (statement : Stmt) : Reader (List Stmt) := do
  if !(← accept ";") && !statement.endsItself then fail (.expected ";")
  return statement :: (← rest)

theorem statementsUpTo_succ (stmt : Reader Stmt) (fuel : Nat) : statementsUpTo stmt (fuel + 1) = (do
    if ← accept "\x7d" then return []
    match ← stmt with
    | .empty => statementsUpTo stmt fuel
    | statement =>
      if ← accept "\x7d" then return [statement]
      afterStatement (statementsUpTo stmt fuel) statement) := rfl

theorem extends_afterStatement {rest rest' : Reader (List Stmt)} (statement : Stmt)
    (h : ExtendsTaking always n n' rest rest') :
    ExtendsTaking always n n' (afterStatement rest statement) (afterStatement rest' statement) := by
  have after (yes : Bool) : ExtendsTaking always n n'
      (do if !yes && !statement.endsItself then fail (.expected ";")
          return statement :: (← rest))
      (do if !yes && !statement.endsItself then fail (.expected ";")
          return statement :: (← rest')) := .check (h.bindAlways fun _ => .pure _)
  exact ⟨(extends_accept _).bindTakes (fun yes => (after yes).toExtends) fun yes =>
      .inr (after yes).takes,
    .bind_right (extends_accept _ : Extends _ 0 0 _ _).forward (fun yes => (after yes).takes)
      fun yes => (after yes).forward⟩

end

namespace Parts

variable {n n' : Nat} {expr expr' : Reader Expr} {stmt stmt' : Reader Stmt}
  (h : Parts expr expr' stmt stmt')

include h

theorem statementsUpTo (fuel : Nat) : ∀ n n' fuel', n' < fuel' →
    ExtendsTaking always n n' (statementsUpTo stmt fuel) (statementsUpTo stmt' fuel') := by
  induction fuel with
  | zero => exact fun _ _ _ _ => ⟨.fail _, .fail _⟩
  | succ fuel ih =>
    intro n n' fuel' hf
    obtain ⟨fuel', rfl⟩ : ∃ k, fuel' = k + 1 := ⟨fuel' - 1, by omega⟩
    have rest := ExtendsTaking.fewer (n := n) ih hf
    rw [statementsUpTo_succ, statementsUpTo_succ]
    refine .acceptOr _ _ ((h.onStmt n n').andThenFewer fun statement => ?_)
    split
    · exact rest
    · exact .acceptOr _ _ (extends_afterStatement _ rest)

theorem blockRest : ExtendsTaking always n n' (blockRest stmt) (blockRest stmt') :=
  .get (fun _ => (extends_inScope (h.statementsUpTo _ 0 0 1 Nat.zero_lt_one)).forward_takes)
    (fun _ _ => rfl)
    fun _ _ _ _ _ _ _ =>
      (extends_inScope (h.statementsUpTo _ _ _ _ (Reading.lt_length _ _ _))).toExtends

theorem block : ExtendsTaking always n n' (block stmt) (block stmt') :=
  (extends_expect _).bindAlways fun _ => h.blockRest.toExtends

/-! ### Expressions -/

theorem templateRest (fuel : Nat) : ∀ n n' fuel', n' < fuel' →
    ExtendsTaking never n n' (templateRest stmt fuel) (templateRest stmt' fuel') := by
  induction fuel with
  | zero => exact fun _ _ _ _ => ⟨.fail _, .fail _⟩
  | succ fuel ih =>
    intro n n' fuel' hf
    obtain ⟨fuel', rfl⟩ : ∃ k, fuel' = k + 1 := ⟨fuel' - 1, by omega⟩
    have rest := (ExtendsTaking.fewer (n := n) ih hf).toExtends
    refine .position fun place => .peek fun token => ?_
    split
    · refine .advance ?_
      dsimp only
      split
      · exact (h.blockRest.bindFewer fun _ => rest.bind fun _ => .pure _).toExtends
      · exact .pure _
    · exact .fail _

/-- The parts of a template, put together. -/
theorem templateParts (place : Position) (fuel fuel' : Nat) (hf : n' < fuel') :
    ExtendsTaking never n n'
      (do match ← Reader.templateRest stmt fuel with
          | [] => return Expr.constant (.text "") place
          | [.constant text _] => return Expr.constant text place
          | parts => return Expr.template parts place)
      (do match ← Reader.templateRest stmt' fuel' with
          | [] => return Expr.constant (.text "") place
          | [.constant text _] => return Expr.constant text place
          | parts => return Expr.template parts place) := by
  refine (h.templateRest fuel n n' fuel' hf).bind fun parts => ?_
  split <;> exact .pure _

theorem template : ExtendsTaking never n n' (template stmt) (template stmt') :=
  .position fun place =>
    .get (fun _ => (h.templateParts (n := 0) place _ 1 Nat.zero_lt_one).forward_takes)
      (fun _ _ => rfl)
      fun _ _ _ _ _ _ _ => (h.templateParts place _ _ (Reading.lt_length _ _ _)).toExtends

theorem mapMember : ExtendsTaking never n n' (mapMember expr) (mapMember expr') := by
  have rest (name : String) : ExtendsTaking never n n'
      (do advance; expect ":"; return (name, ← expr))
      (do advance; expect ":"; return (name, ← expr')) :=
    .advance ((extends_expect _).toExtends.bind fun _ => ((h.onExpr n n').bind fun _ =>
      .pure _).toExtends)
  refine .peek fun token => ?_
  dsimp only
  split
  · exact rest _
  · exact rest _
  · exact rest _
  · exact .failBind _
  · exact .failBind _

theorem arguments : Extends never n n' (arguments expr) (arguments expr') :=
  extends_items _ h.onExpr

omit h in
theorem closureParameters : ExtendsTaking never n n' closureParameters closureParameters :=
  .acceptOr _ _ ((extends_expect _).bind fun _ =>
    (extends_items _ fun _ _ => extends_readName.anyway).bind fun _ =>
      (extends_checkDistinct _).bind fun _ => .pure _)

omit h in
theorem noteUses (captured : List (String × Position)) : Extends always n n'
    (captured.forM fun (name, position) => noteUse name position : Reader Unit)
    (captured.forM fun (name, position) => noteUse name position) := by
  induction captured with
  | nil => exact .pure ()
  | cons first rest ih => exact (extends_noteUse _ _).bindAlways fun _ => ih

theorem closure : ExtendsTaking never n n' (closure stmt) (closure stmt') := by
  refine .position fun place => closureParameters.bind fun parameters => ?_
  refine (extends_inFunction parameters (h.onStmt n n').toExtends).bind fun (body, captured) => ?_
  have named (number : Nat) : Extends never n n'
      (do modify fun r => { r with
            anonymous := r.anonymous + 1
            functions := r.functions ++
              [⟨"anon$" ++ toString number, captured.map (·.1) ++ parameters, [body]⟩] }
          captured.forM fun (name, position) => noteUse name position
          return Expr.function ("anon$" ++ toString number) captured place)
      (do modify fun r => { r with
            anonymous := r.anonymous + 1
            functions := r.functions ++
              [⟨"anon$" ++ toString number, captured.map (·.1) ++ parameters, [body]⟩] }
          captured.forM fun (name, position) => noteUse name position
          return Expr.function ("anon$" ++ toString number) captured place) := by
    refine (extends_addFunction ⟨_, _, _⟩ ⟨number, rfl⟩).bind fun _ => ?_
    exact (noteUses captured).bind fun _ => .pure _
  exact .get (fun s => (named _).forward) (fun _ _ => rfl) fun s P M M' _ hn hn' => (named _).of_le hn hn'

theorem primary : ExtendsTaking never n n' (primary expr stmt) (primary expr' stmt') := by
  refine .position fun place => .peek fun token => ?_
  have callOf (name : String) : Extends never n n'
      (do return Expr.call name (← Reader.arguments expr) place)
      (do return Expr.call name (← Reader.arguments expr') place) :=
    h.arguments.bind fun _ => .pure _
  have ofStmt : ExtendsTaking never n n' (do return Expr.statement (← stmt))
      (do return Expr.statement (← stmt')) := (h.onStmt n n').bind fun _ => .pure _
  split
  · exact .advance (.pure _)
  · exact .advance (.pure _)
  · exact .advance (.pure _)
  · exact .advance (.pure _)
  · exact h.template
  · exact .advance (.pure _)
  · exact .advance (.pure _)
  · split
    · exact ofStmt
    · exact .fail _
  · -- a name, or the call of a function
    refine .advance ((extends_accept _).bind fun yes => ?_)
    split
    · exact callOf _
    · exact (extends_noteUse _ _).bind fun _ => .pure _
  · -- the subject, or the call of a function of the language
    rename_i word
    refine .advance ?_
    split
    · have subject (yes : Bool) : Extends never n n'
          (if yes then return Expr.subject place else failAt (.reserved word) place)
          (if yes then return Expr.subject place else failAt (.reserved word) place) := by
        split
        · exact .pure _
        · exact .failAt _ _
      exact .get (fun _ => (subject _).forward) (fun _ _ => rfl) fun _ _ _ _ _ hn hn' => (subject _).of_le hn hn'
    · refine (extends_accept _).bind fun yes => ?_
      split
      · exact callOf _
      · exact .failAt _ _
  · refine .advance ((extends_accept _).bind fun yes => ?_)
    split
    · exact .pure _
    · exact ((h.onExpr n n').bind fun _ => (extends_expect _).toExtends.bind fun _ =>
        .pure _).toExtends
  · exact .advance ((extends_items _ h.onExpr).bind fun _ => .pure _)
  · exact .advance ((extends_items _ fun _ _ => h.mapMember).bind fun _ =>
      (extends_checkDistinct _).bind fun _ => .pure _)
  · exact ofStmt
  · exact h.closure
  · exact h.closure
  · exact .fail _

theorem memberLink (optional : Bool) : Extends never n n'
    (do let place ← position
        match ← peek with
        | some (.name s) =>
          advance
          if ← accept "(" then return some (Link.method s (← Reader.arguments expr) optional place)
          else return some (.member s optional place)
        | some (.reserved s) =>
          advance
          if isMethodWord s && (← accept "(") then
            return some (.method s (← Reader.arguments expr) optional place)
          else failAt (.reserved s) place
        | _ => fail (.expected "a property"))
    (do let place ← position
        match ← peek with
        | some (.name s) =>
          advance
          if ← accept "(" then return some (Link.method s (← Reader.arguments expr') optional place)
          else return some (.member s optional place)
        | some (.reserved s) =>
          advance
          if isMethodWord s && (← accept "(") then
            return some (.method s (← Reader.arguments expr') optional place)
          else failAt (.reserved s) place
        | _ => fail (.expected "a property")) := by
  have callOf (name : String) (place : Position) : Extends never n n'
      (do return some (Link.method name (← Reader.arguments expr) optional place))
      (do return some (Link.method name (← Reader.arguments expr') optional place)) :=
    h.arguments.bind fun _ => .pure _
  refine extends_position.bind fun place => extends_peek.bind fun token => ?_
  split
  · refine extends_advance.bind fun _ => (extends_accept _).bind fun yes => ?_
    split
    · exact callOf _ _
    · exact .pure _
  · refine extends_advance.bind fun _ => (extends_accept _).bind fun yes => ?_
    split
    · exact callOf _ _
    · exact .failAt _ _
  · exact .fail _

theorem itemLink (optional : Bool) : Extends never n n'
    (do let index ← expr
        expect "]"
        return some (Link.item index optional ((index.position).getD .start)))
    (do let index ← expr'
        expect "]"
        return some (Link.item index optional ((index.position).getD .start))) :=
  ((h.onExpr n n').bind fun _ => (extends_expect _).toExtends.bind fun _ => .pure _).toExtends

theorem link? : Extends never n n' (link? expr) (link? expr') := by
  refine (extends_accept _).bind fun yes => ?_
  split
  · exact h.memberLink _
  refine (extends_accept _).bind fun yes => ?_
  split
  · exact h.memberLink _
  refine (extends_accept _).bind fun yes => ?_
  split
  · exact h.itemLink _
  refine (extends_accept _).bind fun yes => ?_
  split
  · exact h.itemLink _
  · exact .pure _

theorem takes_link? {s t : Reading} {l : Link} (hl : Gives (Reader.link? expr) s (some l) t)
    (hne : s.tokens ≠ []) : t.tokens.length < s.tokens.length := by
  have member (optional : Bool) := (h.memberLink optional : Extends _ 0 0 _ _).forward
  have item (optional : Bool) := (h.itemLink optional : Extends _ 0 0 _ _).forward
  refine takes_acceptElse (member false) (fun hl => ?_) hl hne
  refine takes_acceptElse (member true) (fun hl => ?_) hl hne
  refine takes_acceptElse (item false) (fun hl => ?_) hl hne
  refine takes_acceptElse (item true) (fun hl => ?_) hl hne
  cases (gives_pure.1 hl).1

theorem forward_links (fuel : Nat) : Forward (links expr fuel) := by
  induction fuel with
  | zero => exact .pure _
  | succ fuel ih =>
    refine (h.link? : Extends _ 0 0 _ _).forward.bind fun found => ?_
    split
    · exact .pure _
    · exact ih.bind fun _ => .pure _

theorem links (fuel : Nat) : ∀ n n' fuel', n ≤ fuel → n' ≤ fuel' →
    Extends never n n' (links expr fuel) (links expr' fuel') := by
  have forward := h.forward_links fuel
  induction fuel with
  | zero =>
    intro n n' fuel' hn _
    obtain rfl := Nat.le_zero.1 hn
    exact .nothing_at_all forward
  | succ fuel ih =>
    intro n n' fuel' hn hf
    cases fuel' with
    | zero =>
      obtain rfl := Nat.le_zero.1 hf
      exact .nothing_never forward
    | succ fuel' =>
      refine h.link?.bindLt (fun found => ?_) fun _ (hc : never _) => hc.elim
      cases found with
      | none => exact ⟨n, n', .pure _, .inl ⟨Nat.le_refl _, Nat.le_refl _⟩⟩
      | some link =>
        refine ⟨n - 1, n' - 1, (ih (h.forward_links fuel) _ _ fuel' (by omega) (by omega)).bind
          fun _ => .pure _, .inr ⟨by omega, by omega, fun hl => h.takes_link? hl⟩⟩

omit h in
theorem chain (root : Expr) (links : List Link) :
    Extends always n n' (chain root links) (chain root links) := by
  unfold Reader.chain
  split
  · exact .pure _
  · split
    · exact .pure _
    · exact .failAt _ _
  · exact .pure _

omit h in
theorem forward_signsBefore (fuel : Nat) : Forward (signsBefore fuel) := by
  induction fuel with
  | zero => exact .pure _
  | succ fuel ih =>
    refine (extends_position : Extends _ 0 0 _ _).forward.bind fun place => ?_
    refine (extends_peek : Extends _ 0 0 _ _).forward.bind fun token => ?_
    split
    · split
      · exact (extends_advance : Extends _ 0 0 _ _).forward.bind fun _ => ih.bind fun _ => .pure _
      · exact .pure _
    · exact .pure _

omit h in
theorem signsBefore (fuel : Nat) : ∀ n n' fuel', n ≤ fuel → n' ≤ fuel' →
    Extends never n n' (signsBefore fuel) (signsBefore fuel') := by
  have forward := forward_signsBefore fuel
  induction fuel with
  | zero =>
    intro n n' fuel' hn _
    obtain rfl := Nat.le_zero.1 hn
    exact .nothing_at_all forward
  | succ fuel ih =>
    intro n n' fuel' hn hf
    cases fuel' with
    | zero =>
      obtain rfl := Nat.le_zero.1 hf
      exact .nothing_never forward
    | succ fuel' =>
      refine extends_position.bind fun place => extends_peek.bind fun token => ?_
      split
      · split
        · refine extends_advance.bindLt (fun _ => ⟨n - 1, n' - 1, ?_,
            .inr ⟨by omega, by omega, fun hr => takes_advance hr⟩⟩) fun _ hc => hc.elim
          exact (ih (forward_signsBefore fuel) _ _ fuel' (by omega) (by omega)).bind fun _ => .pure _
        · exact .pure _
      · exact .pure _

theorem operand : ExtendsTaking never n n' (operand expr stmt) (operand expr' stmt') := by
  have whole (fuel n n' fuel') (hn : n ≤ fuel) (hf : n' ≤ fuel') : ExtendsTaking never n n'
      (do let signs ← Reader.signsBefore fuel
          let root ← Reader.primary expr stmt
          let operand ← Reader.chain root (← Reader.links expr fuel)
          return signs.foldr signed operand)
      (do let signs ← Reader.signsBefore fuel'
          let root ← Reader.primary expr' stmt'
          let operand ← Reader.chain root (← Reader.links expr' fuel')
          return signs.foldr signed operand) :=
    .andThen (signsBefore _ _ _ _ hn hf) fun signs => h.primary.bind fun root =>
      (h.links _ _ _ _ hn hf).bind fun links => (chain root links).bind fun _ => .pure _
  refine .get (fun _ => (whole _ 0 0 0 (Nat.zero_le _) (Nat.le_refl _)).forward_takes)
    (fun _ _ => rfl)
    fun s P M M' hs _ _ => (whole _ _ _ _ ?_ (Reading.le_length _ _ _)).toExtends
  exact Nat.le_of_eq (by rw [hs, List.length_append])

omit h in
theorem forward_rights {operand : Reader Expr} (ho : Forward operand) (pipe : Bool) (fuel : Nat) :
    Forward (rights operand pipe fuel) := by
  induction fuel with
  | zero => exact .pure _
  | succ fuel ih =>
    refine (extends_position : Extends _ 0 0 _ _).forward.bind fun place => ?_
    refine (extends_peek : Extends _ 0 0 _ _).forward.bind fun token => ?_
    split
    · refine (extends_peek : Extends _ 0 0 _ _).forward.bind fun token => ?_
      split
      · exact .fail _
      · exact .pure _
    · refine (extends_advance : Extends _ 0 0 _ _).forward.bind fun _ => ho.bind fun _ => ?_
      exact ih.bind fun _ => .pure _

omit h in
theorem rights {operand operand' : Reader Expr}
    (ho : ∀ n n', ExtendsTaking never n n' operand operand') (pipe : Bool) (fuel : Nat) :
    ∀ n n' fuel', n ≤ fuel → n' ≤ fuel' →
      Extends never n n' (rights operand pipe fuel) (rights operand' pipe fuel') := by
  have forward (fuel) := forward_rights (ho 0 0).forward pipe fuel
  induction fuel with
  | zero =>
    intro n n' fuel' hn _
    obtain rfl := Nat.le_zero.1 hn
    exact .nothing_at_all (forward 0)
  | succ fuel ih =>
    intro n n' fuel' hn hf
    cases fuel' with
    | zero =>
      obtain rfl := Nat.le_zero.1 hf
      exact .nothing_never (forward _)
    | succ fuel' =>
      refine extends_position.bind fun place => extends_peek.bind fun token => ?_
      split
      · refine extends_peek.bind fun token => ?_
        split
        · exact .fail _
        · exact .pure _
      · refine extends_advance.bind fun _ => (ho n n').toExtends.bindLt (fun right => ⟨n - 1, n' - 1,
          ?_, .inr ⟨by omega, by omega, fun hr => (ho n n').takes hr⟩⟩) fun _ hc => hc.elim
        exact (ih _ _ fuel' (by omega) (by omega)).bind fun _ => .pure _

/-- What follows the first operand of an expression, put together with it. -/
theorem tree (first : Expr) (pipe : Bool) (fuel fuel' : Nat) (hn : n ≤ fuel) (hf : n' ≤ fuel') :
    Extends never n n'
      (do match Operator.tree first (← Reader.rights (Reader.operand expr stmt) pipe fuel) with
          | .ok tree => return tree
          | .error err => throw err)
      (do match Operator.tree first (← Reader.rights (Reader.operand expr' stmt') pipe fuel') with
          | .ok tree => return tree
          | .error err => throw err) := by
  refine (rights (fun _ _ => h.operand) pipe _ _ _ _ hn hf).bind fun rest => ?_
  split
  · exact .pure _
  · exact .throw _

theorem expression (pipe : Bool) :
    ExtendsTaking never n n' (expression expr stmt pipe) (expression expr' stmt' pipe) := by
  refine h.operand.bind fun first => .get (fun _ => ?_) (fun _ _ => rfl)
    fun s P M M' hs _ _ => ?_
  · exact (h.tree (n := 0) first pipe _ 0 (Nat.zero_le _) (Nat.le_refl _)).forward
  · exact h.tree first pipe _ _ (Nat.le_of_eq (by rw [hs, List.length_append]))
      (Reading.le_length _ _ _)

/-! ### Statements -/

theorem condition : ExtendsTaking never n n' (condition expr) (condition expr') := by
  refine .look (fun s => ⟨_, run_atSign _ s⟩) (extends_atSign _) fun yes => .check ?_
  refine (h.onExpr n n').bind fun found => ?_
  split
  · exact .failAt _ _
  · exact .pure _

theorem branches : ExtendsTaking Closes n n' (branches expr stmt) (branches expr' stmt') := by
  refine h.condition.andThenFewer fun found => ?_
  refine h.block.bindAlways fun yes => extends_acceptElse.bindTakes (fun more => ?_) fun _ =>
    .inl trivial
  split
  · -- a second branch may be a statement that begins with the same word
    refine (ExtendsTaking.peek_of_gives (fun token b => token = some (.word "if") →
      ∃ s, b = .branch found yes [s] ∧ Closes s) (fun token => ?_) ?_).toExtends
    · split
      · refine ⟨(h.onStmt _ _).toExtends.bindClosing (fun _ => .pure _) fun {s t b u} hb hc _ => ?_,
          (h.onStmt n n').takes.bind_left fun _ => .pure _⟩
        obtain ⟨rfl, -⟩ := gives_pure.1 hb
        obtain ⟨s', hs', hclosing⟩ := hc rfl
        cases hs'
        exact .inl hclosing
      · exact h.block.bindAlways fun _ => .pure _
    · intro s b t hb _ htoken
      rw [htoken] at hb
      obtain ⟨a, u, ha, hb⟩ := gives_bind.1 hb
      obtain ⟨rfl, -⟩ := gives_pure.1 hb
      refine ⟨a, rfl, ?_⟩
      rcases hs : s.tokens with - | ⟨⟨token, p⟩, rest⟩
      · rw [hs] at htoken
        cases htoken
      · rw [hs] at htoken
        cases htoken
        exact h.onIf ha hs
  · exact .pure _

omit h in
theorem casePatterns {pattern pattern' : Reader Expr}
    (hp : ∀ n n', ExtendsTaking never n n' pattern pattern') (fuel : Nat) : ∀ n n' fuel', n' < fuel' →
    ExtendsTaking never n n' (casePatterns pattern fuel) (casePatterns pattern' fuel') := by
  induction fuel with
  | zero => exact fun _ _ _ _ => ⟨.fail _, .fail _⟩
  | succ fuel ih =>
    intro n n' fuel' hf
    obtain ⟨fuel', rfl⟩ : ∃ k, fuel' = k + 1 := ⟨fuel' - 1, by omega⟩
    have rest := (ExtendsTaking.fewer (n := n) ih hf).toExtends
    refine .look (fun _ => ⟨_, rfl⟩) extends_place fun place => (hp n n').bindFewer fun found => ?_
    split
    · exact .failAt _ _
    · refine (extends_accept _).bind fun yes => ?_
      split
      · exact rest.bind fun _ => .pure _
      · exact .pure _

theorem caseBody : ExtendsTaking never n n' (caseBody stmt) (caseBody stmt') :=
  (extends_expect _).bind fun _ => (h.onStmt n n').toExtends.bind fun _ =>
    (extends_accept _).bind fun _ => (extends_atSign _).bind fun _ => .check (.pure _)

/-- What follows the guard of a case. -/
theorem caseTail {others others' : Reader (List Case × Option Stmt)}
    (rest : ExtendsTaking always n n' others others') (patterns : List CasePattern) (guard : Expr) :
    ExtendsTaking always n n'
      (do let body ← Reader.caseBody stmt
          let (rest, otherwise) ← others
          return (Case.mk patterns guard body :: rest, otherwise))
      (do let body ← Reader.caseBody stmt'
          let (rest, otherwise) ← others'
          return (Case.mk patterns guard body :: rest, otherwise)) :=
  .andThen h.caseBody.toExtends fun _ => rest.bindAlways fun _ => .pure _

/-- A case and the cases after it. -/
theorem caseWhole {pattern pattern' : Reader Expr}
    (hp : ∀ n n', ExtendsTaking never n n' pattern pattern')
    {others others' : Reader (List Case × Option Stmt)}
    (rest : ExtendsTaking always n (n' - 1) others others') (place : Position) (rounds rounds' : Nat)
    (hr : n' < rounds') : ExtendsTaking always n n'
      (do let patterns ← Reader.casePatterns pattern rounds
          let guard ← if ← acceptWord "if" then Reader.condition expr
            else pure (.constant (.bool true) place)
          let body ← Reader.caseBody stmt
          let (rest, otherwise) ← others
          return (Case.mk patterns guard body :: rest, otherwise))
      (do let patterns ← Reader.casePatterns pattern' rounds'
          let guard ← if ← acceptWord "if" then Reader.condition expr'
            else pure (.constant (.bool true) place)
          let body ← Reader.caseBody stmt'
          let (rest, otherwise) ← others'
          return (Case.mk patterns guard body :: rest, otherwise)) := by
  refine (casePatterns hp rounds n n' rounds' hr).andThenFewer fun patterns => ?_
  refine .andThen (extends_acceptWord _) fun yes => ?_
  split
  · exact .andThen h.condition.toExtends (h.caseTail rest patterns)
  · exact h.caseTail rest patterns _

theorem cases {pattern pattern' : Reader Expr}
    (hp : ∀ n n', ExtendsTaking never n n' pattern pattern') (fuel : Nat) : ∀ n n' fuel', n' < fuel' →
    ExtendsTaking always n n' (cases expr pattern stmt fuel) (cases expr' pattern' stmt' fuel') := by
  induction fuel with
  | zero => exact fun _ _ _ _ => ⟨.fail _, .fail _⟩
  | succ fuel ih =>
    intro n n' fuel' hf
    obtain ⟨fuel', rfl⟩ : ∃ k, fuel' = k + 1 := ⟨fuel' - 1, by omega⟩
    have rest := ExtendsTaking.fewer (n := n) ih hf
    refine .acceptOr _ _ (.andThen (extends_acceptWord _) fun yes => ?_)
    split
    · exact .andThen h.caseBody.toExtends fun body => .acceptOr _ _ (.failBind _)
    · refine .position fun place => .get (fun _ => ?_) (fun _ _ => rfl) fun s P M M' hs hn hn' => ?_
      · exact (h.caseWhole hp (rest.of_le (Nat.zero_le _) (Nat.zero_le _)) place _ 1
          Nat.zero_lt_one).forward_takes
      · exact (h.caseWhole hp (rest.of_le hn (by omega)) place _ _
          (Reading.lt_length _ _ _)).toExtends

omit h in
theorem loopNames : Extends never n n' loopNames loopNames := by
  refine (extends_accept _).bind fun yes => ?_
  split
  · refine (extends_readName.bind fun item => (extends_expect _).toExtends.bind fun _ =>
      (extends_readName.bind fun counter => ?_).toExtends).toExtends
    exact .check ((extends_expect _).toExtends.bind fun _ => .pure _)
  · exact (extends_readName.bind fun item => .pure _).toExtends

omit h in
theorem bindNames (name : Option String) :
    Extends always n n' (name.forM fun name => bindName name false : Reader Unit)
      (name.forM fun name => bindName name false) := by
  cases name with
  | none => exact .pure ()
  | some name => exact extends_bindName _ _

theorem forLoop : ExtendsTaking always n n' (forLoop expr stmt) (forLoop expr' stmt') := by
  refine .andThen loopNames fun (item, counter) => .andThen (extends_acceptWord _) fun found => ?_
  have body : ExtendsTaking always n n'
      (inScope do
        bindName item false
        counter.forM fun name => bindName name false
        inLoop (Reader.block stmt))
      (inScope do
        bindName item false
        counter.forM fun name => bindName name false
        inLoop (Reader.block stmt')) :=
    extends_inScope (.andThen (extends_bindName _ _) fun _ => .andThen (bindNames _) fun _ =>
      extends_inLoop h.block)
  refine .check (.look (fun s => ⟨_, run_atSign _ s⟩) (extends_atSign _) fun brace => .check ?_)
  exact .andThen (h.onExpr n n').toExtends fun source => .checkAt (body.bindAlways fun _ => .pure _)

theorem conditionLast :
    ExtendsTaking never n n' (conditionLast expr stmt) (conditionLast expr' stmt') := by
  have after (body : List Stmt) (wanted : Bool) : Extends never n n'
      (do return Stmt.again body (← Reader.condition expr) wanted)
      (do return Stmt.again body (← Reader.condition expr') wanted) :=
    (h.condition.bind fun _ => .pure _).toExtends
  refine (extends_inLoop h.block).bind fun body => (extends_acceptWord _).bind fun yes => ?_
  split
  · exact after _ _
  · refine (extends_acceptWord _).bind fun yes => ?_
    split
    · exact after _ _
    · exact (ExtendsTaking.failBind _).toExtends

omit h in
theorem atEnd : Extends never n n' atEnd atEnd := by
  refine extends_peek.bind fun token => ?_
  split
  · exact .pure _
  · exact .pure _
  · exact .pure _

theorem optionalValue : Extends never n n' (optionalValue expr) (optionalValue expr') := by
  refine atEnd.bind fun yes => ?_
  split
  · exact .pure _
  · exact ((h.onExpr n n').bind fun _ => .pure _).toExtends

theorem declaration (constant : Bool) :
    ExtendsTaking never n n' (declaration expr constant) (declaration expr' constant) := by
  refine .position fun place => extends_readName.bind fun name => ?_
  have after (value : Option Expr) : Extends never n n'
      (do bindName name constant; return Stmt.declare name value constant place)
      (do bindName name constant; return Stmt.declare name value constant place) :=
    (extends_bindName _ _).bind fun _ => .pure _
  refine (extends_accept _).bind fun yes => ?_
  split
  · exact ((h.onExpr n n').map some).bind after
  · exact after _

theorem attempt : ExtendsTaking always n n' (attempt stmt) (attempt stmt') := by
  refine h.block.bindAlways fun body => ?_
  have after (caught : Option String) : ExtendsTaking always n n'
      (do let handler ← inScope do
            caught.forM fun name => bindName name false
            Reader.block stmt
          return Stmt.attempt body caught handler)
      (do let handler ← inScope do
            caught.forM fun name => bindName name false
            Reader.block stmt'
          return Stmt.attempt body caught handler) :=
    (extends_inScope (.andThen (bindNames _) fun _ => h.block)).bindAlways fun _ => .pure _
  refine (ExtendsTaking.andThen (extends_acceptWord _) fun found => .check ?_).toExtends
  refine .andThen (extends_accept _) fun yes => ?_
  split
  · exact .andThen extends_readName.toExtends fun name => .andThen (extends_expect _).toExtends
      fun _ => after _
  · exact after _

theorem fetch (place : Position) :
    ExtendsTaking never n n' (fetch expr place) (fetch expr' place) := by
  refine (h.onExpr n n').bind fun path => (extends_acceptWord _).bind fun yes => ?_
  split
  · exact (extends_readName.bind fun _ => .pure _).toExtends
  · exact .pure _

omit h in
theorem checkLocal (position : Option Position) (name : String) (found : Option Bool) :
    Extends always n n'
      (match found with
        | some true => failAt (.constant name) position
        | _ => return () : Reader Unit)
      (match found with
        | some true => failAt (.constant name) position
        | _ => return ()) := by
  split
  · exact .failAt _ _
  · exact .pure _

omit h in
theorem checkName (position : Option Position) (name : String) :
    Extends always n n'
      (do match (← get).locals.lookup name with
          | some true => failAt (.constant name) position
          | _ => return () : Reader Unit)
      (do match (← get).locals.lookup name with
          | some true => failAt (.constant name) position
          | _ => return ()) :=
  .get (fun _ => (@checkLocal n n' position name _).forward) (fun _ _ => rfl) fun _ _ _ _ _ hn hn' =>
    (checkLocal position name _).of_le hn hn'

omit h in
theorem checkTarget (target : Expr) : Extends always n n' (checkTarget target) (checkTarget target) := by
  unfold Reader.checkTarget
  dsimp only
  split
  · exact checkName _ _
  · split
    · exact checkName _ _
    · exact .failAt _ _
  · split
    · exact .pure _
    · exact .failAt _ _
  · exact .pure _
  · exact .failAt _ _
  · exact .failAt _ _

theorem exprOrAssignment :
    ExtendsTaking never n n' (exprOrAssignment expr) (exprOrAssignment expr') := by
  refine (h.onExpr n n').bind fun target => extends_position.bind fun place =>
    extends_peek.bind fun token => ?_
  split
  · exact .pure _
  · exact extends_advance.bind fun _ => ((h.onExpr n n').bind fun value =>
      (checkTarget target).bind fun _ => .pure _).toExtends

/-- A statement after its first word with a value that may follow. -/
theorem withValue (of : Option Expr → Stmt) (hof : ∀ value, ¬ Closes (of value)) :
    Extends Closes n n' (do return of (← Reader.optionalValue expr))
      (do return of (← Reader.optionalValue expr')) :=
  (h.optionalValue.bind fun _ => .pure _).of_yields (.bind fun _ => .pure (hof _))

theorem leave (place : Position) : Extends Closes n n'
    (do if (← get).inLoop then return Stmt.leave (← Reader.optionalValue expr)
        else failAt (.misplaced "break") place)
    (do if (← get).inLoop then return Stmt.leave (← Reader.optionalValue expr')
        else failAt (.misplaced "break") place) := by
  have inside (yes : Bool) : Extends Closes n n'
      (do if yes then return Stmt.leave (← Reader.optionalValue expr)
          else failAt (.misplaced "break") place)
      (do if yes then return Stmt.leave (← Reader.optionalValue expr')
          else failAt (.misplaced "break") place) := by
    split
    · exact h.withValue .leave fun _ => by simp [Closes, Stmt.endsItself]
    · exact .failAt _ _
  exact .get (fun _ => (inside _).forward) (fun _ _ => rfl) fun _ _ _ _ _ hn hn' =>
    (inside _).of_le hn hn'

omit h in
theorem next (place : Position) : Extends Closes n n'
    (do if (← get).inLoop then return Stmt.next else failAt (.misplaced "continue") place)
    (do if (← get).inLoop then return Stmt.next else failAt (.misplaced "continue") place) := by
  have inside (yes : Bool) : Extends Closes n n'
      (do if yes then return Stmt.next else failAt (.misplaced "continue") place)
      (do if yes then return Stmt.next else failAt (.misplaced "continue") place) := by
    split
    · exact .pure _
    · exact .failAt _ _
  exact .get (fun _ => (inside _).forward) (fun _ _ => rfl) fun _ _ _ _ _ hn hn' =>
    (inside _).of_le hn hn'

theorem switch : ExtendsTaking always n n'
    (do let subject ← expr
        expect "\x7b"
        let (found, otherwise) ←
          Reader.cases expr (Reader.expression expr stmt false) stmt ((← get).tokens.length + 1)
        return Stmt.switch subject found otherwise)
    (do let subject ← expr'
        expect "\x7b"
        let (found, otherwise) ←
          Reader.cases expr' (Reader.expression expr' stmt' false) stmt' ((← get).tokens.length + 1)
        return Stmt.switch subject found otherwise) := by
  refine .andThen (h.onExpr n n').toExtends fun subject => .andThen (extends_expect _).toExtends
    fun _ => ?_
  have whole (fuel n n' fuel') (hf : n' < fuel') : ExtendsTaking always n n'
      (do let (found, otherwise) ←
            Reader.cases expr (Reader.expression expr stmt false) stmt fuel
          return Stmt.switch subject found otherwise)
      (do let (found, otherwise) ←
            Reader.cases expr' (Reader.expression expr' stmt' false) stmt' fuel'
          return Stmt.switch subject found otherwise) :=
    (h.cases (fun _ _ => h.expression false) fuel n n' fuel' hf).bindAlways fun _ => .pure _
  exact .get (fun _ => (whole _ 0 0 1 Nat.zero_lt_one).forward_takes) (fun _ _ => rfl)
    fun _ _ _ _ _ _ _ =>
    (whole _ _ _ _ (Reading.lt_length _ _ _)).toExtends

theorem conditionLast_of_closes :
    ExtendsTaking Closes n n' (Reader.conditionLast expr stmt) (Reader.conditionLast expr' stmt') := by
  refine h.conditionLast.of_yields (.bind fun body => .bind fun yes => ?_)
  have again (wanted : Bool) : Yields (¬ Closes ·)
      (do return Stmt.again body (← Reader.condition expr) wanted) :=
    .bind fun _ => .pure (by simp [Closes, Stmt.endsItself])
  dsimp only
  split
  · exact again _
  · refine .bind fun yes => ?_
    split
    · exact again _
    · exact .bind again

theorem declaration_of_closes (constant : Bool) : ExtendsTaking Closes n n'
    (Reader.declaration expr constant) (Reader.declaration expr' constant) := by
  refine (h.declaration constant).of_yields (.bind fun place => .bind fun name => .bind fun yes => ?_)
  have declared (value : Option Expr) : Yields (¬ Closes ·)
      (do bindName name constant; return Stmt.declare name value constant place) :=
    .bind fun _ => .pure (by simp [Closes, Stmt.endsItself])
  dsimp only
  split
  · exact .bind declared
  · exact declared _

theorem fetch_of_closes (place : Position) :
    ExtendsTaking Closes n n' (Reader.fetch expr place) (Reader.fetch expr' place) := by
  refine (h.fetch place).of_yields (.bind fun path => .bind fun yes => ?_)
  split
  · exact .bind fun _ => .pure (by simp [Closes, Stmt.endsItself])
  · exact .pure (by simp [Closes, Stmt.endsItself])

theorem exprOrAssignment_of_closes : ExtendsTaking Closes n n' (Reader.exprOrAssignment expr)
    (Reader.exprOrAssignment expr') := by
  refine h.exprOrAssignment.of_yields (.bind fun target => .bind fun place => .bind fun token => ?_)
  split
  · exact .pure (by simp [Closes, Stmt.endsItself])
  · exact .bind fun _ => .bind fun value => .bind fun _ => .pure (by simp [Closes, Stmt.endsItself])

theorem statement : ExtendsTaking Closes n n' (statement expr stmt) (statement expr' stmt') := by
  refine .position fun place => .peek fun token => ?_
  split
  · exact .advance (.pure _)
  · exact h.block.bindAlways fun _ => .pure _
  · rename_i word
    dsimp only
    split
    · refine .advance ?_
      split
      · exact h.branches.toExtends
      · exact (ExtendsTaking.look (fun s => ⟨_, run_atSign _ s⟩) (extends_atSign _) fun brace =>
          .check (h.switch.weaken fun _ _ => trivial)).toExtends
      · exact (h.condition.andThenFewer fun found =>
          (extends_inLoop h.block).bindAlways fun _ => .pure _).toExtends
      · exact ((extends_inLoop h.block).bindAlways fun _ => .pure _).toExtends
      · exact h.conditionLast_of_closes.toExtends
      · exact (h.forLoop.weaken fun _ _ => trivial).toExtends
      · exact (h.declaration_of_closes _).toExtends
      · exact (h.declaration_of_closes _).toExtends
      · exact next place
      · exact h.leave place
      · exact h.withValue .answer fun _ => by simp [Closes, Stmt.endsItself]
      · exact h.withValue (.raise · place) fun _ => by simp [Closes, Stmt.endsItself]
      · exact (h.attempt.weaken fun _ _ => trivial).toExtends
      · exact (h.fetch_of_closes place).toExtends
      · exact h.exprOrAssignment_of_closes.toExtends
      · exact h.exprOrAssignment_of_closes.toExtends
      · exact .failAt _ _
    · -- the word begins an expression, or nothing
      rename_i hknown
      have hword : word = "true" ∨ word = "false" ∨ word = "_" := by
        simpa [Decidable.or_iff_not_imp_left] using hknown
      rcases hword with rfl | rfl | rfl
      · exact h.exprOrAssignment_of_closes
      · exact h.exprOrAssignment_of_closes
      · exact .failAt _ _
  · exact h.exprOrAssignment_of_closes

end Parts

/-! ### Expressions and statements -/

theorem closes_of_if {expr : Reader Expr} {stmt : Reader Stmt} {s : Reading} {a : Stmt}
    {t : Reading} {p : Position} {rest : Tokens} (h : Gives (statement expr stmt) s a t)
    (hs : s.tokens = (.word "if", p) :: rest) : Closes a := by
  unfold statement at h
  rw [gives_bind_of_run (r := position) rfl, gives_bind_of_run (r := peek) rfl, hs] at h
  change Gives (do advance; branches expr stmt) s a t at h
  have branch : Yields Closes (do advance; branches expr stmt) := by
    refine .bind fun _ => .bind fun found => .bind fun yes => .bind fun more => ?_
    split
    · refine .bind fun token => ?_
      split
      · exact .bind fun _ => .pure (.inl rfl)
      · exact .bind fun _ => .pure (.inl rfl)
    · exact .pure (.inl rfl)
  exact branch h

theorem parts_of_le {fuel : Nat} : ∀ {fuel'}, fuel ≤ fuel' →
    Parts (readExpr fuel) (readExpr fuel') (readStmt fuel) (readStmt fuel') := by
  induction fuel with
  | zero =>
    intro fuel' _
    exact ⟨fun _ _ => ⟨.fail _, .fail _⟩, fun _ _ => ⟨.fail _, .fail _⟩, fun h => (gives_fail.1 h).elim⟩
  | succ fuel ih =>
    intro fuel' hf
    obtain ⟨fuel', rfl⟩ : ∃ k, fuel' = k + 1 := ⟨fuel' - 1, by omega⟩
    have parts := ih (Nat.le_of_succ_le_succ hf)
    exact ⟨fun _ _ => parts.expression true, fun _ _ => parts.statement, closes_of_if⟩

end Rulebook.Script.Reader
