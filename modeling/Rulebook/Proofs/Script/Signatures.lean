import Rulebook.Proofs.Script.Sentences

/-!
# Reading after other functions

The functions that were read before matter to a reader in one way only: a name and a number of
parameters cannot be taken twice. So what is read of a script does not depend on what the functions
before it do, `grows_program`.
-/

namespace Rulebook.Script

/-- Functions that have the same names and parameters, one by one. -/
def SameSignatures (functions others : List Function) : Prop :=
  functions.map (fun f => (f.name, f.parameters)) = others.map fun f => (f.name, f.parameters)

theorem SameSignatures.append {functions others : List Function} (h : SameSignatures functions others)
    (more : List Function) : SameSignatures (functions ++ more) (others ++ more) := by
  unfold SameSignatures at h ⊢
  rw [List.map_append, List.map_append, h]

/-- Whether a name is taken is seen from the signatures. -/
theorem SameSignatures.any_eq {functions others : List Function} (h : SameSignatures functions others)
    (p : String × List String → Bool) :
    (functions.any fun f => p (f.name, f.parameters)) = others.any fun f => p (f.name, f.parameters) := by
  have hany (fs : List Function) : (fs.any fun f => p (f.name, f.parameters)) =
      (fs.map fun f => (f.name, f.parameters)).any p := by
    rw [List.any_map]
    rfl
  rw [hany, hany, h]

namespace Reader

variable {α β : Type} {r : Reader α} {f : α → Reader β}

/-- A reader that adds functions, and to which only the signatures of those before it matter. -/
def Grows (r : Reader α) : Prop :=
  ∀ ⦃s a t⦄, Gives r s a t → ∃ more, t.functions = s.functions ++ more ∧
    ∀ before, SameSignatures s.functions before →
      Gives r (s.withFunctions before) a (t.withFunctions (before ++ more))

theorem Forward.grows (h : Forward r) : Grows r := by
  intro s a t hr
  obtain ⟨more, hmore, -⟩ := (h.later hr).functions
  exact ⟨more, hmore, fun before _ => h.blind hr hmore before⟩

namespace Grows

theorem pure (a : α) : Grows (Pure.pure a) := (Forward.pure a).grows

theorem bind (h : Grows r) (hf : ∀ a, Grows (f a)) : Grows (r >>= f) := by
  intro s b u hb
  obtain ⟨a, t, hr, hb⟩ := gives_bind.1 hb
  obtain ⟨first, hfirst, hr⟩ := h hr
  obtain ⟨second, hsecond, hb⟩ := hf a hb
  refine ⟨first ++ second, by rw [hsecond, hfirst, List.append_assoc], fun before hsame => ?_⟩
  rw [← List.append_assoc]
  exact gives_bind.2 ⟨a, _, hr before hsame, hb _ (hfirst ▸ hsame.append first)⟩

/-- A reader after a check. -/
theorem check {c : Prop} [Decidable c] {problem : SyntaxProblem} {f : Unit → Reader α}
    (h : Grows (f ())) : Grows (if c then Reader.fail problem >>= f else f ()) := by
  split
  · exact (Forward.of_fails fun _ _ _ => not_gives_fail_bind).grows
  · exact h

/-- A reader that depends on the signatures of the functions. -/
theorem get {f : Reading → Reader α} (hf : ∀ s, Grows (f s))
    (hsame : ∀ s before, SameSignatures s.functions before → f (s.withFunctions before) = f s) :
    Grows (MonadState.get >>= f) := by
  intro s a t h
  rw [gives_bind_of_run (r := MonadState.get) rfl] at h
  obtain ⟨more, hmore, hblind⟩ := hf s h
  refine ⟨more, hmore, fun before hbefore => ?_⟩
  rw [gives_bind_of_run (r := MonadState.get) rfl, hsame s before hbefore]
  exact hblind before hbefore

end Grows

variable {stmt : Reader Stmt}

theorem grows_addFunction (f : Function) :
    Grows (modify fun r => { r with functions := r.functions ++ [f] }) := by
  intro s a t h
  obtain rfl := gives_modify.1 h
  exact ⟨[f], rfl, fun _ _ => gives_modify.2 rfl⟩

theorem Grows.inFunction (h : Grows r) (parameters : List String) :
    Grows (inFunction parameters r) := by
  intro s result t hresult
  obtain ⟨inner, hr, hunbound, rfl⟩ := gives_inFunction.1 hresult
  obtain ⟨more, hmore, hblind⟩ := h hr
  exact ⟨more, hmore, fun before hbefore =>
    gives_inFunction.2 ⟨_, hblind before hbefore, hunbound, rfl⟩⟩

theorem grows_function (h : Grows (block stmt)) : Grows (function stmt) := by
  have forward {α : Type} {closing : α → Prop} {r r' : Reader α} (h : Extends closing 0 0 r r') :
      Grows r := h.forward.grows
  refine (forward extends_readName.toExtends).bind fun name => ?_
  refine (forward (extends_expect "(").toExtends).bind fun _ => ?_
  refine (forward (extends_items ")" fun _ _ => extends_readName.anyway)).bind fun parameters => ?_
  refine (forward (extends_checkDistinct parameters)).bind fun _ => ?_
  refine .get (fun s => .check ?_) fun s before hbefore => ?_
  · exact (h.inFunction parameters).bind fun _ => grows_addFunction _
  · have htaken := hbefore.any_eq fun signature =>
      signature.1 = name && signature.2.length = parameters.length
    dsimp only [Reading.withFunctions] at htaken ⊢
    rw [htaken]
    rfl

/-- A script is read in the same way after other functions with the same signatures. -/
theorem grows_program (depth fuel : Nat) : Grows (program (readStmt depth) fuel) := by
  have parts := parts_of_le (Nat.le_refl depth)
  have forward {α : Type} {closing : α → Prop} {r r' : Reader α} (h : Extends closing 0 0 r r') :
      Grows r := h.forward.grows
  have hfunction : Grows (function (readStmt depth)) := grows_function (forward parts.block.toExtends)
  induction fuel with
  | zero => exact .pure _
  | succ fuel ih =>
    have hnext : Grows (do function (readStmt depth); program (readStmt depth) fuel) :=
      hfunction.bind fun _ => ih
    refine (forward extends_peek).bind fun token => ?_
    split
    · exact .pure _
    refine (forward (extends_acceptWord "private")).bind fun isPrivate => ?_
    split
    · refine (forward (extends_acceptWord "fn")).bind fun isFunction => .check hnext
    refine (forward (extends_acceptWord "fn")).bind fun isFunction => ?_
    split
    · exact hnext
    refine (forward (parts.onStmt 0 0).toExtends).bind fun statement => ?_
    split
    · exact ih
    · exact (forward (extends_accept ";")).bind fun isEnded =>
        (forward extends_peek).bind fun next => .check (ih.bind fun _ => .pure _)

end Reader
end Rulebook.Script
