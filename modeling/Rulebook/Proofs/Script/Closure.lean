import Rulebook.Proofs.Script.Lifting
import Rulebook.Workbench

/-!
# What a script can learn from its host

In the secure mode a script can read the clock and can ask for modules, and that is all that it
learns from its host. The state counts the readings and lists the modules that were asked for, so
that two hosts can be compared on just these.

* `State.Silent s t`: from the state `s` to the state `t`, nothing was printed and nothing that was
  asked for is forgotten;
* `State.Alike host host' s`: the hosts agree on everything that was asked for up to the state `s`;
* `Mirrors host host' q m m'`: `m` is silent, comes to values with the property `q` only, and `m'`
  does the same from every state if the hosts agree on what `m` asks for.

`mirrors_run` says it of all tasks: `run setting` is mirrored by `run` in the same setting on another
host, as `mirroring` is a relation that evaluation preserves.
-/

namespace Rulebook

/-- Whether an action prints nothing. -/
def Action.Silent (action : Action) : Prop :=
  ∀ document input, (action.run document input).output.printed = ""

namespace Script

/-- Nothing was printed between two states, and what was asked for before is still known. -/
structure State.Silent (s t : State) : Prop where
  readings : s.readings ≤ t.readings
  fetched : ∀ path ∈ s.fetched, path ∈ t.fetched
  printed : t.output.printed = s.output.printed

/-- Whether two hosts agree on what was asked for up to a state. -/
structure State.Alike (host host' : Host) (s : State) : Prop where
  clock : ∀ n < s.readings, host'.clock n = host.clock n
  modules : ∀ path ∈ s.fetched, host'.modules path = host.modules path

namespace State

variable {s t u : State} {host host' : Host}

theorem Silent.refl (s : State) : Silent s s := ⟨Nat.le_refl _, fun _ h => h, rfl⟩

theorem Silent.trans (h : Silent s t) (h' : Silent t u) : Silent s u :=
  ⟨Nat.le_trans h.readings h'.readings, fun path hpath => h'.fetched path (h.fetched path hpath),
    h'.printed.trans h.printed⟩

/-- Changes elsewhere in the state do not count. -/
theorem Silent.of_eq (hreadings : t.readings = s.readings) (hfetched : t.fetched = s.fetched)
    (houtput : t.output = s.output) : Silent s t :=
  ⟨Nat.le_of_eq hreadings.symm, fun path h => hfetched ▸ h, by rw [houtput]⟩

/-- Hosts that agree in the end agree on the way. -/
theorem Alike.of_silent (h : Alike host host' t) (hst : Silent s t) : Alike host host' s :=
  ⟨fun n hn => h.clock n (Nat.lt_of_lt_of_le hn hst.readings),
    fun path hpath => h.modules path (hst.fetched path hpath)⟩

end State

namespace Setting

/-- The setting on another host. -/
def on (setting : Setting) (host : Host) : Setting := { setting with host }

@[simp] theorem function?_on (setting : Setting) (host : Host) :
    (setting.on host).function? = setting.function? := rfl

end Setting

/-- Whether a sandbox is one of the secure mode, with actions that print nothing. -/
structure Sandbox.Sealed (sandbox : Sandbox) : Prop where
  secure : sandbox.mode = .secure
  silent : ∀ name action, sandbox.actions.get? name = some action → action.Silent

namespace Eval

/-! ### The same on another host -/

/-- The first evaluation is silent and comes to values with a property only; the second one does the
same as the first one from every state, if the hosts agree on what the first one asks for. -/
structure Mirrors (host host' : Host) {α : Type} (q : α → Prop) (m m' : Eval α) : Prop where
  silent : ∀ s, State.Silent s (m s).2
  yields : ∀ {s a}, (m s).1 = .ok a → q a
  same : ∀ {s}, State.Alike host host' (m s).2 → m' s = m s

namespace Mirrors

variable {α β : Type} {host host' : Host} {q : α → Prop} {r : β → Prop} {m m' : Eval α}
  {f f' : α → Eval β}

/-- A silent evaluation that needs no host. -/
theorem refl (h : ∀ s, State.Silent s (m s).2) : Mirrors host host' Whatever m m :=
  ⟨h, fun _ => trivial, fun _ => rfl⟩

theorem pure {a : α} (h : q a) : Mirrors host host' q (Pure.pure a) (Pure.pure a) :=
  ⟨.refl, fun ha => Except.ok.inj ha ▸ h, fun _ => rfl⟩

theorem signal (reason : Signal) :
    Mirrors host host' q (Eval.signal reason) (Eval.signal reason) :=
  ⟨.refl, fun ha => (by cases ha), fun _ => rfl⟩

theorem get : Mirrors host host' Whatever Eval.get Eval.get := refl State.Silent.refl

theorem modify {change : State → State} (h : ∀ s, State.Silent s (change s)) :
    Mirrors host host' Whatever (Eval.modify change) (Eval.modify change) := refl h

theorem bind (h : Mirrors host host' q m m') (hf : ∀ a, q a → Mirrors host host' r (f a) (f' a)) :
    Mirrors host host' r (m >>= f) (m' >>= f') := by
  -- the first evaluation up to the state `t`
  have start (s : State) {result : Except Signal α} {t : State} (hm : m s = (result, t)) :
      State.Silent s t ∧ (t.Alike host host' → m' s = (result, t)) ∧
        ∀ a, result = .ok a → q a := by
    refine ⟨by simpa only [hm] using h.silent s, fun ht => ?_, fun a ha => h.yields (s := s) ?_⟩
    · rw [h.same (by rw [hm]; exact ht), hm]
    · rw [hm, ha]
  constructor
  · intro s
    rcases hm : m s with ⟨reason | a, t⟩
    · rw [bind_of_error hm]
      exact (start s hm).1
    · rw [bind_of_ok hm]
      exact (start s hm).1.trans ((hf a ((start s hm).2.2 a rfl)).silent t)
  · intro s b hb
    rcases hm : m s with ⟨reason | a, t⟩
    · rw [bind_of_error hm] at hb
      cases hb
    · rw [bind_of_ok hm] at hb
      exact (hf a ((start s hm).2.2 a rfl)).yields hb
  · intro s hs
    rcases hm : m s with ⟨reason | a, t⟩
    · rw [bind_of_error hm] at hs ⊢
      exact bind_of_error ((start s hm).2.1 hs) f'
    · rw [bind_of_ok hm] at hs ⊢
      have hfa := hf a ((start s hm).2.2 a rfl)
      rw [bind_of_ok ((start s hm).2.1 (hs.of_silent (hfa.silent t)))]
      exact hfa.same hs

theorem outcome (h : Mirrors host host' q m m') :
    Mirrors host host' (fun result => ∀ a, result = .ok a → q a) (Eval.outcome m)
      (Eval.outcome m') where
  silent := h.silent
  yields hresult a ha := h.yields ((Except.ok.inj hresult).trans ha)
  same hs := by rw [Eval.outcome, Eval.outcome, h.same hs]

theorem write {output : Output} (h : output.printed = "") :
    Mirrors host host' Whatever (Eval.write output) (Eval.write output) :=
  modify fun s => ⟨Nat.le_refl _, fun _ hpath => hpath, by
    rw [Output.printed_append, h, String.append_empty]⟩

theorem block (h : Mirrors host host' q m m') :
    Mirrors host host' q (Eval.block m) (Eval.block m') where
  silent s := (h.silent s).trans (.of_eq rfl rfl rfl)
  yields ha := h.yields ha
  same {s} hs := by
    have hm : m' s = m s := h.same ⟨hs.clock, hs.modules⟩
    unfold Eval.block
    rw [hm]

theorem settle {m m' : Eval Datum} (h : Mirrors host host' Whatever m m') :
    Mirrors host host' Whatever (Eval.settle m) (Eval.settle m') := by
  have hstate (m : Eval Datum) (s : State) : (Eval.settle m s).2 = (m s).2 := by
    unfold Eval.settle
    split
    · rename_i hm
      rw [hm]
    · rfl
  refine ⟨fun s => ?_, fun _ => trivial, fun {s} hs => ?_⟩
  · rw [hstate]
    exact h.silent s
  · rw [hstate] at hs
    exact settle_of_eq (h.same hs)

end Mirrors

/-! ### The host -/

section

variable {host host' : Host}

theorem mirrors_readClock :
    Mirrors host host' Whatever (readClock host) (readClock host') where
  silent s := ⟨Nat.le_succ _, fun _ hpath => hpath, rfl⟩
  yields _ := trivial
  same {s} hs := by
    have hclock := hs.clock s.readings (Nat.lt_succ_self _)
    rw [readClock, readClock, hclock]

theorem mirrors_hasModule (path : String) :
    Mirrors host host' Whatever (hasModule host path) (hasModule host' path) where
  silent s := ⟨Nat.le_refl _, fun _ hpath => .tail _ hpath, rfl⟩
  yields _ := trivial
  same hs := by rw [hasModule, hasModule, hs.modules path (.head _)]

end

theorem silent_store (v : Variable) (value : Datum) (s : State) :
    State.Silent s (store v value s).2 := by
  unfold store Eval.modify
  dsimp only
  split <;> exact .of_eq rfl rfl rfl

theorem silent_share (v : Variable) (s : State) : State.Silent s (share v s).2 := by
  unfold share
  split <;> exact .of_eq rfl rfl rfl

/-- To be mirrored is a relation that evaluation preserves; no variable is hidden. -/
def mirroring (host host' : Host) : Congruence where
  hidden := none
  Relates q m m' := Mirrors host host' q m m'
  relates_pure := .pure
  relates_signal := .signal
  relates_bind := .bind
  relates_outcome := .outcome
  relates_block := .block
  content value := .refl fun s => by
    unfold content
    split <;> exact .refl s
  declare _ _ _ := .modify fun _ => .of_eq rfl rfl rfl
  findVariable _ := Mirrors.get.bind fun _ _ => .pure fun v _ =>
    ⟨fun value => .refl (silent_store v value), .refl (silent_share v)⟩
  isDefined _ := Mirrors.get.bind fun _ _ => .pure trivial
  subjectAt _ := Mirrors.get.bind fun s _ => by
    split
    · exact .pure trivial
    · exact .signal _
  setSubject _ := .modify fun _ => .of_eq rfl rfl rfl

/-- In the secure mode, the clock is all of the host that a function reaches. -/
theorem mirrors_callHost {setting : Setting} (h : setting.sandbox.Sealed) (host' : Host)
    (name : String) (arguments : List Datum) :
    Option.Rel (Mirrors setting.host host' Whatever) (callHost setting name arguments)
      (callHost (setting.on host') name arguments) := by
  have hmode : (setting.on host').sandbox.mode = .secure := h.secure
  unfold callHost
  rw [h.secure, hmode]
  dsimp only
  split
  case h_1 | h_7 => exact .some (mirrors_readClock.bind fun _ _ => .pure trivial)
  case h_8 => exact .none
  all_goals contradiction

theorem mirrors_callFunction {host host' : Host} {runner runner' : Runner}
    (h : ∀ task, Mirrors host host' Whatever (runner task) (runner' task)) (f : Function)
    (arguments : List Datum) (subject : Option Datum) (position : Option Position) :
    Mirrors host host' Whatever (callFunction runner f arguments subject position)
      (callFunction runner' f arguments subject position) := by
  have hbody := (h (.body f.body)).settle
  have hlater (s : State) : State.Silent s
      (settle (runner (.body f.body)) (enter f.parameters arguments subject s)).2 := by
    have henter : State.Silent s (enter f.parameters arguments subject s) := .of_eq rfl rfl rfl
    exact henter.trans (hbody.silent _)
  refine ⟨fun s => ?_, fun _ => trivial, fun {s} hs => ?_⟩
  · rw [callFunction_apply]
    split
    · exact .refl s
    · exact (hlater s).trans (.of_eq rfl rfl rfl)
  · rw [callFunction_apply] at hs
    rw [callFunction_apply, callFunction_apply]
    split
    · rfl
    · rename_i hcalls
      rw [if_neg hcalls] at hs
      rw [hbody.same ⟨hs.clock, hs.modules⟩]

/-- In the secure mode, what a script prints goes to the log. -/
theorem printed_wordOutput {setting : Setting} (h : setting.sandbox.Sealed) (name text : String)
    (position : Position) : (setting.wordOutput name text position).printed = "" := by
  unfold Setting.wordOutput Setting.debugged Setting.printed
  rw [h.secure]
  split <;> rfl

/-- In the secure mode, all that evaluations ask for is mirrored on another host. -/
theorem lifts_mirroring {setting : Setting} (hsealed : setting.sandbox.Sealed) {host' : Host}
    {runner runner' : Runner}
    (h : ∀ task, Mirrors setting.host host' Whatever (runner task) (runner' task)) :
    (mirroring setting.host host').Lifts setting (setting.on host') runner runner' where
  functions := rfl
  actions := rfl
  runs task _ := h task
  callFunction := mirrors_callFunction h
  callHost := mirrors_callHost hsealed host'
  hasModule := mirrors_hasModule
  leave name _ haction document input := .write (hsealed.silent name _ haction document input)
  print name text position := .write (printed_wordOutput hsealed name text position)

/-- **A run in the secure mode learns nothing from its host** but what the clock shows when it is read
and whether there are the modules that it asks for. -/
theorem mirrors_run {setting : Setting} (hsealed : setting.sandbox.Sealed) (host' : Host)
    (depth : Nat) (task : Task) :
    Mirrors setting.host host' Whatever (run setting depth task)
      (run (setting.on host') depth task) := by
  induction depth generalizing task with
  | zero => exact .signal _
  | succ n ih => exact (lifts_mirroring hsealed ih).step fun _ hn => (by cases hn)

end Eval

open Eval

/-! ### Scripts -/

theorem mirrors_evaluation {setting : Setting} (hsealed : setting.sandbox.Sealed) (host' : Host)
    (program : Program) (function argument : String) :
    Mirrors setting.host host' Whatever (evaluation setting program function argument)
      (evaluation (setting.on host') program function argument) := by
  have hruns := mirrors_run hsealed host' depth
  have hcall (f : Function) : Mirrors setting.host host' Whatever
      (valueOf (callFunction (run setting depth) f [.text argument] none none))
      (valueOf (callFunction (run (setting.on host') depth) f [.text argument] none none)) :=
    Congruence.relates_valueOf (C := mirroring setting.host host')
      (mirrors_callFunction hruns f [.text argument] none none)
  unfold evaluation
  refine (hruns (.body program.statements)).block.outcome.bind fun top _ => ?_
  dsimp only
  rw [Setting.function?_on]
  split
  case h_3 => exact .signal _
  all_goals
    split
    · exact hcall _
    · exact .signal _

/-- The state in which a call of the entry point of a script ends. -/
def ending (script : Script) (input : String) (host : Host) : State :=
  (evaluation (script.setting host) script.program Compilation.entryPoint input {}).2

/-- A script of the secure mode prints nothing. -/
theorem printed_execute {script : Script} (hsealed : script.sandbox.Sealed) (input : String)
    (host : Host) : (script.execute input host).1.printed = "" :=
  ((@mirrors_evaluation (script.setting host) hsealed host script.program Compilation.entryPoint
    input).silent {}).printed

/-- A script of the secure mode comes to the same on hosts that agree on what it asks for. -/
theorem execute_of_alike {script : Script} (hsealed : script.sandbox.Sealed) {input : String}
    {host host' : Host} (h : (script.ending input host).Alike host host') :
    script.execute input host' = script.execute input host := by
  have hsame := (@mirrors_evaluation (script.setting host) hsealed host' script.program
    Compilation.entryPoint input).same h
  change evaluation (script.setting host') _ _ _ _ = _ at hsame
  rw [execute, execute, call, call, hsame]

end Script
end Rulebook
