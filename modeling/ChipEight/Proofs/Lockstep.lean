/-
# Machines in lockstep

Which instructions a machine executes is told by what it is asked for
(`Machine.executed`), and so is how many random bytes it draws. Two machines
that are alike do the same at every call. What it takes to be alike may hang on
the instructions that the first machine is going to execute: that none of them
reads where the two differ, or that the second source has the same bytes for
them. So a relation between machines is taken here together with the
instructions ahead, and each call takes its own off the front of them.

A relation that every step and every other event keeps is kept by all calls,
and the two machines answer them alike, as far as the answer to a frame does
not show what the relation leaves open.

Key definitions: `Machine.executedIn`, `Call.executed`, `Machine.executed`,
`Instruction.draws`, `Lockstep`.
Key theorems: `Machine.random_step`, `Machine.perform_of_agree`,
`Lockstep.steps`, `Lockstep.call`.
-/
import ChipEight.Proofs.History
import ChipEight.Proofs.ReadSet
import ChipEight.Proofs.StepEffects

namespace ChipEight

/-! ### What is executed -/

section

variable {σ : Type} [RandomSource σ]

/-- The instructions that some steps execute, up to the first fault. -/
def Machine.executedIn : Nat → Machine σ → List Instruction
  | 0, _ => []
  | k + 1, m =>
    match m.step with
    | (.ok i, m') => i :: executedIn k m'
    | (.error _, _) => []

/-- The instructions that an event executes. -/
def Event.executed : Event → Machine σ → List Instruction
  | .step, m => m.executedIn 1
  | _, _ => []

/-- The instructions that a call executes. -/
def Call.executed : Call → Machine σ → List Instruction
  | .event e, m => e.executed m
  | .run count, m => m.executedIn count.toNat
  | .frame pace inputs, m =>
    match m.onKeypad (Console.applyKeys inputs), Console.budget inputs pace with
    | (.ok _, m'), .ok count => m'.executedIn count.toNat
    | _, _ => []

/-- The instructions that some calls execute. -/
def Machine.executed : List Call → Machine σ → List Instruction
  | [], _ => []
  | c :: cs, m => c.executed m ++ executed cs (c.perform m).2

end

namespace Instruction

/-- How many random bytes some instructions draw: one for each `CXNN`. -/
def draws (is : List Instruction) : Nat := is.countP fun i => i.opcode = .rnd

theorem draws_append (is js : List Instruction) : draws (is ++ js) = draws is + draws js :=
  List.countP_append

theorem draws_of_rnd {i : Instruction} (h : i.opcode = .rnd) : draws [i] = 1 := by
  simp [draws, h]

theorem draws_of_not_rnd {i : Instruction} (h : i.opcode ≠ .rnd) : draws [i] = 0 := by
  simp [draws, h]

theorem writes_random_iff {σ : Type} {i : Instruction} {m : Machine σ} :
    i.Writes m .random ↔ i.opcode = .rnd := by
  cases e : i.opcode <;> simp [Writes, e]

end Instruction

namespace Machine

variable {σ : Type} [RandomSource σ] {m m' : Machine σ} {i : Instruction} {f : Fault}

theorem executedIn_of_done (h : m.step = .done i m') (k : Nat) :
    m.executedIn (k + 1) = i :: m'.executedIn k := by
  simp only [executedIn, h]

theorem executedIn_of_fail (h : m.step = .fail f m') (k : Nat) : m.executedIn (k + 1) = [] := by
  simp only [executedIn, h]

/-- Steps in two parts execute what the parts do, one after the other. -/
theorem executedIn_add : ∀ (a b : Nat) {m m' : Machine σ}, m.steps a = .done () m' →
    m.executedIn (a + b) = m.executedIn a ++ m'.executedIn b
  | 0, b, m, m', h => by
    obtain rfl : m = m' := congrArg Prod.snd h
    rw [Nat.zero_add, executedIn, List.nil_append]
  | a + 1, b, m, m', h => by
    obtain ⟨i, m₁, first, rest⟩ := Attempt.andThen_eq_done_iff.1 h
    rw [Nat.succ_add, executedIn_of_done first, executedIn_of_done first, executedIn_add a b rest,
      List.cons_append]

theorem random_execute (i : Instruction) (m : Machine σ) :
    (execute i m).2.random = RandomSource.after (Instruction.draws [i]) m.random := by
  by_cases h : i.opcode = .rnd
  · rw [Instruction.draws_of_rnd h]
    simp only [execute, h]
    rfl
  · rw [Instruction.draws_of_not_rnd h]
    exact sameAt_execute (c := .random) fun hw => h (Instruction.writes_random_iff.1 hw)

/-- **A step draws a byte for a `CXNN` that it executes, and no other.** -/
theorem random_step (m : Machine σ) :
    m.step.2.random = RandomSource.after (Instruction.draws (m.executedIn 1)) m.random := by
  rcases m.fetch_cases with outside | ⟨w, here, unfit⟩ | ⟨i, here⟩
  · have e := step_of_fetch_outside outside
    rw [executedIn_of_fail e, e]
    rfl
  · have e := step_of_no_opcode here unfit
    rw [executedIn_of_fail e, e]
    rfl
  · have drawn : (execute i m.past).2.random =
        RandomSource.after (Instruction.draws [i]) m.random := random_execute i m.past
    rcases executed : execute i m.past with ⟨f | _, m'⟩
    · -- an instruction that faults is no `CXNN`
      have e : m.step = .fail f m' := by rw [step_of_next here, executed, Attempt.andThen]
      have other : i.opcode ≠ .rnd := fun h => by simp [execute, h] at executed
      rw [executed, Instruction.draws_of_not_rnd other] at drawn
      rw [executedIn_of_fail e, e]
      exact drawn
    · have e : m.step = .done i m'.counted := by
        rw [step_of_next here, executed, Attempt.andThen_done]
      rw [executed] at drawn
      rw [executedIn_of_done e, e]
      exact drawn

/-! ### Events -/

omit [RandomSource σ] in
theorem random_reset (m : Machine σ) : m.reset.random = m.random := by
  simp only [reset_eq_powerOn, powerOn]

omit [RandomSource σ] in
theorem config_reset (m : Machine σ) : m.reset.config = m.config := by
  simp only [reset_eq_powerOn, powerOn]

theorem random_perform (e : Event) (m : Machine σ) :
    (e.perform m).2.random = RandomSource.after (Instruction.draws (e.executed m)) m.random := by
  cases e with
  | step => exact random_step m
  | load program =>
    show (m.load program).2.random = m.random
    unfold load
    split_ifs <;> rfl
  | reset => exact random_reset m
  | setKey | releaseKeys | tick | setDelay | setSound => rfl

theorem config_perform (e : Event) (m : Machine σ) : (e.perform m).2.config = m.config := by
  cases e with
  | step => exact config_step m
  | load program =>
    show (m.load program).2.config = m.config
    unfold load
    split_ifs <;> rfl
  | reset => exact config_reset m
  | setKey | releaseKeys | tick | setDelay | setSound => rfl

/-- A machine has its configuration for good. -/
theorem config_afterCalls (calls : List Call) (m : Machine σ) :
    (m.afterCalls calls).config = m.config := by
  obtain ⟨es, e⟩ := reaches_afterCalls calls m
  rw [← e]
  exact after_invariant (P := fun m' => m'.config = m.config)
    (fun e m' h => (config_perform e m').trans h) es rfl

variable {τ : Type} [RandomSource τ] {n : Machine τ}

theorem load_of_agree (program : List UInt8) :
    EndAlike m n (m.load program) (n.load program) := by
  unfold load
  split_ifs
  · exact .fail _
  · exact .done () fun c h => h.overlay _ _

theorem AgreeAt.tick {c : Cell} (h : AgreeAt m n c) : AgreeAt m.tickTimers n.tickTimers c := by
  cases c
  case delay | sound => exact congrArg Timers.countDown h
  all_goals exact h

/-- A reset leaves nothing open but what is not reset. -/
theorem AgreeAt.reset {c : Cell} (h : c = .random ∨ c = .config → AgreeAt m n c) :
    AgreeAt m.reset n.reset c := by
  cases c
  case random =>
    rw [AgreeAt, random_reset, random_reset]
    exact h (.inl rfl)
  case config =>
    rw [AgreeAt, config_reset, config_reset]
    exact h (.inr rfl)
  all_goals
    rw [reset_eq_powerOn, reset_eq_powerOn]
    rfl

theorem EndAlike.answering {α : Type} {x : Attempt (Machine σ) α} {y : Attempt (Machine τ) α}
    (h : EndAlike m n x y) (f : α → Answer) : EndAlike m n (x.answering f) (y.answering f) :=
  ⟨congrArg (Except.map f) h.1, h.2⟩

/-- An event that is no step looks at the keys, at most. -/
theorem perform_of_agree {e : Event} (ne : e ≠ .step) (keypad : n.keypad = m.keypad) :
    EndAlike m n (e.perform m) (e.perform n) := by
  cases e with
  | step => exact absurd rfl ne
  | load program => exact (load_of_agree program).answering _
  | setKey index pressed => exact (onKeypad_of_agree keypad _).answering _
  | releaseKeys => exact .done _ fun c h => h.withKeypad _
  | tick => exact .done _ fun c h => h.tick
  | setDelay v => exact .done _ fun c h => h.withDelay _
  | setSound v => exact .done _ fun c h => h.withSound _
  | reset => exact .done _ fun c h => .reset fun _ => h

end Machine

/-! ### Lockstep -/

/-- A relation between two machines, given the instructions ahead of the first,
that both keep while they do the same. What a frame shows is compared through a
view. -/
structure Lockstep {σ τ : Type} [RandomSource σ] [RandomSource τ] (view : Answer → Answer)
    (R : List Instruction → Machine σ → Machine τ → Prop) : Prop where
  /-- Both machines make the same step. -/
  step : ∀ {ahead m n}, R (m.executedIn 1 ++ ahead) m n →
    n.step.1 = m.step.1 ∧ R ahead m.step.2 n.step.2
  /-- Another event is the same to both. -/
  event : ∀ {ahead m n} (e : Event), e ≠ .step → R ahead m n →
    (e.perform n).1 = (e.perform m).1 ∧ R ahead (e.perform m).2 (e.perform n).2
  /-- Both have the same keys. -/
  keys : ∀ {ahead m n} (f : Keypad → Attempt Keypad Unit), R ahead m n →
    (n.onKeypad f).1 = (m.onKeypad f).1 ∧ R ahead (m.onKeypad f).2 (n.onKeypad f).2
  /-- Both show the same in a frame. -/
  frame : ∀ {ahead m n} (count : Int), R ahead m n →
    view (.frame ⟨count, n.soundActive, n.snapshot⟩) =
      view (.frame ⟨count, m.soundActive, m.snapshot⟩)

namespace Lockstep

variable {σ τ : Type} [RandomSource σ] [RandomSource τ] {view : Answer → Answer}
  {R : List Instruction → Machine σ → Machine τ → Prop}

/-- Steps of the one are steps of the other. -/
theorem steps (L : Lockstep view R) : ∀ (k : Nat) {ahead : List Instruction} {m : Machine σ}
    {n : Machine τ}, R (m.executedIn k ++ ahead) m n →
      n.executedIn k = m.executedIn k ∧ (n.steps k).1 = (m.steps k).1 ∧
        R ahead (m.steps k).2 (n.steps k).2
  | 0, _, _, _, h => ⟨rfl, rfl, h⟩
  | k + 1, ahead, m, n, h => by
    rcases em : m.step with ⟨f | i, m'⟩
    · have h : R (m.executedIn 1 ++ ahead) m n := by
        rwa [Machine.executedIn_of_fail em] at h ⊢
      obtain ⟨same, after⟩ := L.step h
      have en : n.step = .fail f n.step.2 := Prod.ext (by rw [same, em]) rfl
      rw [Machine.executedIn_of_fail em, Machine.executedIn_of_fail en, Machine.steps,
        Machine.steps, em, en]
      rw [em] at after
      exact ⟨rfl, rfl, after⟩
    · have h : R (m.executedIn 1 ++ (m'.executedIn k ++ ahead)) m n := by
        rwa [Machine.executedIn_of_done em] at h ⊢
      obtain ⟨same, after⟩ := L.step h
      have en : n.step = .done i n.step.2 := Prod.ext (by rw [same, em]) rfl
      rw [em] at after
      obtain ⟨executed, outcome, after⟩ := L.steps k after
      rw [Machine.executedIn_of_done em, Machine.executedIn_of_done en, Machine.steps,
        Machine.steps, em, en, Attempt.andThen_done, Attempt.andThen_done, executed]
      exact ⟨rfl, outcome, after⟩

theorem run (L : Lockstep view R) (count : Int) {ahead : List Instruction} {m : Machine σ}
    {n : Machine τ} (h : R (m.executedIn count.toNat ++ ahead) m n) :
    n.executedIn count.toNat = m.executedIn count.toNat ∧ (n.run count).1 = (m.run count).1 ∧
      R ahead (m.run count).2 (n.run count).2 := by
  obtain ⟨executed, outcome, after⟩ := L.steps count.toNat h
  refine ⟨executed, ?_⟩
  unfold Machine.run
  rcases em : m.steps count.toNat with ⟨r, m'⟩
  rcases en : n.steps count.toNat with ⟨r', n'⟩
  rw [em, en] at outcome after
  obtain rfl : r' = r := outcome
  cases r' with
  | error f => exact ⟨rfl, after⟩
  | ok => exact ⟨rfl, after⟩

/-- A frame up to its tick: the keys come first, then the batch. -/
theorem runMachine (L : Lockstep view R) (pace : Config) (inputs : FrameInputs)
    {ahead : List Instruction} {m : Machine σ} {n : Machine τ}
    (h : R ((Call.frame pace inputs).executed m ++ ahead) m n) :
    (Call.frame pace inputs).executed n = (Call.frame pace inputs).executed m ∧
      (Console.runMachine inputs pace n).1 = (Console.runMachine inputs pace m).1 ∧
      R ahead (Console.runMachine inputs pace m).2 (Console.runMachine inputs pace n).2 := by
  obtain ⟨same, after⟩ := L.keys (Console.applyKeys inputs) h
  simp only [Call.executed, Console.runMachine] at after ⊢
  rcases em : m.onKeypad (Console.applyKeys inputs) with ⟨r, m'⟩
  rcases en : n.onKeypad (Console.applyKeys inputs) with ⟨r', n'⟩
  rw [em, en] at same after
  obtain rfl : r' = r := same
  cases r' with
  | error f => exact ⟨rfl, rfl, after⟩
  | ok =>
    cases hb : Console.budget inputs pace with
    | error f =>
      simp only [hb, Attempt.andThen_done] at after ⊢
      exact ⟨trivial, trivial, after⟩
    | ok count =>
      simp only [hb, Attempt.andThen_done] at after ⊢
      exact L.run count after

/-- **What both keep at every event they keep at every call.** -/
theorem call (L : Lockstep view R) (c : Call) {ahead : List Instruction} {m : Machine σ}
    {n : Machine τ} (h : R (c.executed m ++ ahead) m n) :
    c.executed n = c.executed m ∧ (c.perform n).1.map view = (c.perform m).1.map view ∧
      R ahead (c.perform m).2 (c.perform n).2 := by
  cases c with
  | event e =>
    by_cases isStep : e = .step
    · subst isStep
      obtain ⟨executed, -⟩ := L.steps 1 h
      obtain ⟨same, after⟩ := L.step h
      refine ⟨executed, ?_, after⟩
      exact congrArg (Except.map view ∘ Except.map Answer.instruction) same
    · have none : e.executed m = [] ∧ e.executed n = [] := by
        cases e with
        | step => exact absurd rfl isStep
        | _ => exact ⟨rfl, rfl⟩
      have h : R ahead m n := by rwa [Call.executed, none.1] at h
      obtain ⟨same, after⟩ := L.event e isStep h
      exact ⟨none.2.trans none.1.symm, congrArg (Except.map view) same, after⟩
  | run count =>
    obtain ⟨executed, outcome, after⟩ := L.run count h
    exact ⟨executed, congrArg (Except.map view ∘ Except.map Answer.count) outcome, after⟩
  | frame pace inputs =>
    obtain ⟨executed, outcome, after⟩ := L.runMachine pace inputs h
    refine ⟨executed, ?_⟩
    rw [Machine.perform_frame, Machine.perform_frame]
    rcases em : Console.runMachine inputs pace m with ⟨r, m'⟩
    rcases en : Console.runMachine inputs pace n with ⟨r', n'⟩
    rw [em, en] at outcome after
    obtain rfl : r' = r := outcome
    cases r' with
    | error f => exact ⟨rfl, after⟩
    | ok count =>
      obtain ⟨-, ticked⟩ := L.event .tick (by simp) after
      exact ⟨congrArg Except.ok (L.frame count ticked), ticked⟩

end Lockstep

end ChipEight
