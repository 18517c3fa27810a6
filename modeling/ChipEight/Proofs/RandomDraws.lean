/-
# Random bytes, one for each draw

The source of a machine is only ever asked by a `CXNN` that is executed, and
once by each. So how far the source has gone is told by how many of them there
were, whatever else came in between, and each of them finds the number that
comes next: none is skipped for a mask of zero or for a fault, and a reset does
not go back.

To speak of the instructions one by one, those that a call executes are taken
with the machine before and the machine after each: a call sets its keys, if it
has any, and then executes a batch.

Key definitions: `Execution`, `Call.batch`, `Machine.executions`,
`Execution.Takes`, `Execution.InOrder`.
Key theorems: `Machine.random_steps`, `Machine.random_afterCalls`,
`Execution.takes_of_step`, `Machine.inOrder_executions`,
`Machine.each_draw_takes_the_next_number`.
-/
import ChipEight.Proofs.Lockstep

namespace ChipEight

/-- A byte of a source is the number of its stream modulo `256`. -/
theorem RandomSource.toNat_byte {σ : Type} [RandomSource σ] (s : σ) (k : Nat) :
    (byte s k).toNat = (stream s k % 256).toNat := by
  rw [byte, UInt8.ofInt, UInt8.toNat_ofNat']
  omega

/-- An instruction that was executed, with the machine before and after. -/
structure Execution (σ : Type) where
  before : Machine σ
  instruction : Instruction
  after : Machine σ

section

variable {σ : Type}

/-- How many instructions a call is to execute, and the machine to execute them. -/
def Call.batch : Call → Machine σ → Nat × Machine σ
  | .event .step, m => (1, m)
  | .event _, m => (0, m)
  | .run count, m => (count.toNat, m)
  | .frame pace inputs, m =>
    match m.onKeypad (Console.applyKeys inputs), Console.budget inputs pace with
    | (.ok _, m'), .ok count => (count.toNat, m')
    | _, _ => (0, m)

variable [RandomSource σ]

namespace Machine

/-- The instructions that some steps execute, each with its machines. -/
def executionsIn : Nat → Machine σ → List (Execution σ)
  | 0, _ => []
  | k + 1, m =>
    match m.step with
    | (.ok i, m') => ⟨m, i, m'⟩ :: executionsIn k m'
    | (.error _, _) => []

/-- The instructions that some calls execute, each with its machines. -/
def executions : List Call → Machine σ → List (Execution σ)
  | [], _ => []
  | c :: cs, m => (c.batch m).2.executionsIn (c.batch m).1 ++ executions cs (c.perform m).2

end Machine

end

namespace Execution

variable {σ : Type} {s : σ} {j : Nat} {x : Execution σ} {xs ys : List (Execution σ)}

/-- The `CXNN` among some executions. -/
def draws (xs : List (Execution σ)) : List (Execution σ) :=
  xs.filter fun x => x.instruction.opcode = .rnd

theorem draws_append (xs ys : List (Execution σ)) : draws (xs ++ ys) = draws xs ++ draws ys :=
  List.filter_append xs ys

theorem length_draws (xs : List (Execution σ)) :
    (draws xs).length = Instruction.draws (xs.map instruction) := by
  rw [draws, Instruction.draws, List.countP_map, List.countP_eq_length_filter]
  rfl

variable [RandomSource σ]

/-- A `CXNN` takes the `k`-th byte of a source: it puts the bits of that byte that
its mask keeps in its register, and leaves the other registers alone. -/
structure Takes (x : Execution σ) (s : σ) (k : Nat) : Prop where
  step : x.before.step = .done x.instruction x.after
  before : x.before.random = RandomSource.after k s
  after : x.after.random = RandomSource.after (k + 1) s
  register : x.after.reg x.instruction.x = RandomSource.byte s k &&& x.instruction.nn
  others : ∀ y, y ≠ x.instruction.x → x.after.reg y = x.before.reg y

/-- The `CXNN` among some executions take the bytes of a source one after the
other, from the `j`-th on. -/
def InOrder (s : σ) (j : Nat) (xs : List (Execution σ)) : Prop :=
  ∀ k, ∀ x : Execution σ, (draws xs)[k]? = some x → x.Takes s (j + k)

theorem InOrder.nil (s : σ) (j : Nat) : InOrder s j [] := by
  intro k x h
  cases h

/-- Later executions go on in order where the earlier ones left off. -/
theorem InOrder.append (hx : InOrder s j xs) (hy : InOrder s (j + (draws xs).length) ys) :
    InOrder s j (xs ++ ys) := by
  intro k x h
  rw [draws_append] at h
  by_cases first : k < (draws xs).length
  · rw [List.getElem?_append_left first] at h
    exact hx k x h
  · have late : (draws xs).length ≤ k := Nat.le_of_not_lt first
    rw [List.getElem?_append_right late] at h
    have takes := hy _ x h
    rwa [Nat.add_assoc, Nat.add_sub_cancel' late] at takes

/-! ### One step -/

/-- **A `CXNN` takes the byte that the source is at.** -/
theorem takes_of_step (step : x.before.step = .done x.instruction x.after)
    (op : x.instruction.opcode = .rnd) (here : x.before.random = RandomSource.after j s) :
    x.Takes s j := by
  obtain ⟨-, -, result⟩ := Machine.of_step_done step
  have drawn : x.after =
      (x.before.past.randomize x.instruction.x x.instruction.nn).counted := by
    rw [result]
    simp only [Machine.execute, op]
  have source : x.before.past.random = RandomSource.after j s := here
  refine ⟨step, here, ?_, ?_, fun y other => ?_⟩
  · have next : x.after.random = RandomSource.after 1 x.before.past.random := by rw [drawn]; rfl
    rw [next, source, RandomSource.after_after]
  · have set : x.after.reg x.instruction.x =
        RandomSource.byte x.before.past.random 0 &&& x.instruction.nn := by
      rw [drawn]
      exact Vector.getElem_set_self _
    rw [set, source, RandomSource.byte_after, Nat.add_zero]
  · have apart : (x.instruction.x : Nat) ≠ y := fun e => other (Fin.ext e.symm)
    rw [drawn]
    exact Vector.getElem_set_ne x.instruction.x.isLt y.isLt apart

theorem inOrder_of_step (step : x.before.step = .done x.instruction x.after)
    (here : x.before.random = RandomSource.after j s) : InOrder s j [x] := by
  intro k y h
  by_cases op : x.instruction.opcode = .rnd
  · have single : draws [x] = [x] := by simp [draws, op]
    rw [single, List.getElem?_singleton] at h
    split_ifs at h with first
    cases h
    subst first
    exact takes_of_step step op here
  · have none : draws [x] = [] := by simp [draws, op]
    rw [none] at h
    cases h

end Execution

/-! ### The batch of a call -/

theorem Machine.random_run {σ : Type} [RandomSource σ] (count : Int) (m : Machine σ) :
    (m.run count).2.random = (m.steps count.toNat).2.random := by
  unfold Machine.run
  rcases m.steps count.toNat with ⟨_ | _, m'⟩
  · rfl
  · rfl

namespace Call

variable {σ : Type} [RandomSource σ]

theorem executed_eq_batch (c : Call) (m : Machine σ) :
    c.executed m = (c.batch m).2.executedIn (c.batch m).1 := by
  cases c with
  | event e =>
    cases e with
    | step => rfl
    | _ => rfl
  | run count => rfl
  | frame pace inputs =>
    simp only [executed, batch]
    rcases m.onKeypad (Console.applyKeys inputs) with ⟨_ | _, m'⟩
    · rfl
    · cases Console.budget inputs pace with
      | error f => rfl
      | ok count => rfl

omit [RandomSource σ] in
/-- Nothing is drawn before the batch. -/
theorem random_batch (c : Call) (m : Machine σ) : (c.batch m).2.random = m.random := by
  cases c with
  | event e =>
    cases e with
    | step => rfl
    | _ => rfl
  | run count => rfl
  | frame pace inputs =>
    have keyed : (m.onKeypad (Console.applyKeys inputs)).2.random = m.random := rfl
    simp only [batch]
    rcases keys : m.onKeypad (Console.applyKeys inputs) with ⟨_ | _, m'⟩
    · rfl
    · rw [keys] at keyed
      cases Console.budget inputs pace with
      | error f => rfl
      | ok count => exact keyed

/-- Nothing is drawn after the batch. -/
theorem random_perform (c : Call) (m : Machine σ) :
    (c.perform m).2.random = ((c.batch m).2.steps (c.batch m).1).2.random := by
  cases c with
  | event e =>
    cases e with
    | step =>
      show m.step.2.random = (m.step.andThen fun _ m => .done () m).2.random
      rcases m.step with ⟨_ | _, m'⟩
      · rfl
      · rfl
    | _ => exact Machine.random_perform _ m
  | run count => exact Machine.random_run count m
  | frame pace inputs =>
    have keyed : (m.onKeypad (Console.applyKeys inputs)).2.random = m.random := rfl
    rw [Machine.perform_frame]
    simp only [batch, Console.runMachine]
    rcases keys : m.onKeypad (Console.applyKeys inputs) with ⟨_ | _, m'⟩
    · rw [keys] at keyed
      exact keyed
    · rw [keys] at keyed
      cases Console.budget inputs pace with
      | error f => exact keyed
      | ok count =>
        rw [← Machine.random_run, Attempt.andThen_done]
        simp only
        rcases m'.run count with ⟨_ | _, m''⟩
        · rfl
        · rfl

end Call

namespace Machine

variable {σ : Type} [RandomSource σ] {m m' : Machine σ} {i : Instruction} {f : Fault}

/-! ### Steps -/

theorem executionsIn_of_done (h : m.step = .done i m') (k : Nat) :
    m.executionsIn (k + 1) = ⟨m, i, m'⟩ :: m'.executionsIn k := by
  simp only [executionsIn, h]

theorem executionsIn_of_fail (h : m.step = .fail f m') (k : Nat) :
    m.executionsIn (k + 1) = [] := by
  simp only [executionsIn, h]

theorem map_executionsIn : ∀ (k : Nat) (m : Machine σ),
    (m.executionsIn k).map Execution.instruction = m.executedIn k
  | 0, _ => rfl
  | k + 1, m => by
    rcases stepped : m.step with ⟨f | i, m'⟩
    · rw [executionsIn_of_fail stepped, executedIn_of_fail stepped, List.map_nil]
    · rw [executionsIn_of_done stepped, executedIn_of_done stepped, List.map_cons,
        map_executionsIn k m']

/-- Steps draw a byte for each `CXNN` among them. -/
theorem random_steps : ∀ (k : Nat) (m : Machine σ),
    (m.steps k).2.random = RandomSource.after (Instruction.draws (m.executedIn k)) m.random
  | 0, _ => rfl
  | k + 1, m => by
    have first := random_step m
    rcases stepped : m.step with ⟨f | i, m'⟩
    · rw [executedIn_of_fail stepped, stepped] at first
      rw [executedIn_of_fail stepped, steps, stepped]
      exact first
    · have rest := random_steps k m'
      have drawn : m'.random = RandomSource.after (Instruction.draws [i]) m.random := by
        rwa [executedIn_of_done stepped, stepped] at first
      have split : Instruction.draws [i] + Instruction.draws (m'.executedIn k) =
          Instruction.draws (m.executedIn (k + 1)) := by
        rw [executedIn_of_done stepped]
        exact (Instruction.draws_append [i] (m'.executedIn k)).symm
      calc (m.steps (k + 1)).2.random
          = (m'.steps k).2.random := by rw [steps, stepped, Attempt.andThen_done]
        _ = RandomSource.after (Instruction.draws (m'.executedIn k))
              (RandomSource.after (Instruction.draws [i]) m.random) := by rw [rest, drawn]
        _ = RandomSource.after (Instruction.draws (m.executedIn (k + 1))) m.random := by
              rw [RandomSource.after_after, split]

theorem inOrder_executionsIn {s : σ} : ∀ (k : Nat) {j : Nat} {m : Machine σ},
    m.random = RandomSource.after j s → Execution.InOrder s j (m.executionsIn k)
  | 0, j, _, _ => .nil s j
  | k + 1, j, m, here => by
    rcases stepped : m.step with ⟨f | i, m'⟩
    · rw [executionsIn_of_fail stepped]
      exact .nil s j
    · have first : Execution.InOrder s j [⟨m, i, m'⟩] := Execution.inOrder_of_step stepped here
      have there : m'.random =
          RandomSource.after (j + (Execution.draws [⟨m, i, m'⟩]).length) s := by
        have drawn := random_step m
        rw [executedIn_of_done stepped, stepped, here, RandomSource.after_after] at drawn
        rwa [Execution.length_draws]
      rw [executionsIn_of_done stepped]
      exact first.append (inOrder_executionsIn k there)

/-! ### Calls -/

theorem map_executions : ∀ (calls : List Call) (m : Machine σ),
    (m.executions calls).map Execution.instruction = m.executed calls
  | [], _ => rfl
  | c :: calls, m => by
    rw [executions, executed, List.map_append, map_executionsIn, map_executions calls,
      c.executed_eq_batch]

theorem random_call (c : Call) (m : Machine σ) :
    (c.perform m).2.random = RandomSource.after (Instruction.draws (c.executed m)) m.random := by
  rw [c.random_perform, random_steps, c.random_batch, c.executed_eq_batch]

/-- **Calls draw a byte for each `CXNN` that they execute, and no other.** -/
theorem random_afterCalls : ∀ (calls : List Call) (m : Machine σ),
    (m.afterCalls calls).random =
      RandomSource.after (Instruction.draws (m.executed calls)) m.random
  | [], _ => rfl
  | c :: calls, m => by
    rw [afterCalls, random_afterCalls calls, random_call, RandomSource.after_after, executed,
      Instruction.draws_append]

/-- Over any calls, the `CXNN` take the bytes of the source one after the other. -/
theorem inOrder_executions {s : σ} : ∀ (calls : List Call) {j : Nat} {m : Machine σ},
    m.random = RandomSource.after j s → Execution.InOrder s j (m.executions calls)
  | [], j, _, _ => .nil s j
  | c :: calls, j, m, here => by
    have first : Execution.InOrder s j ((c.batch m).2.executionsIn (c.batch m).1) :=
      inOrder_executionsIn _ ((c.random_batch m).trans here)
    refine first.append (inOrder_executions calls ?_)
    rw [random_call, here, RandomSource.after_after, Execution.length_draws, map_executionsIn,
      c.executed_eq_batch]

/-- **Each `CXNN` takes the next number of the sequence.** Let a machine be
switched on with any sequence of whole numbers, and let its host ask of it what
it will. Then as many numbers are drawn as `CXNN` are executed, those with a mask
of zero among them, and the `k`-th of these, counted from the first since the
machine was switched on, puts the `k`-th number modulo `256`, as far as its mask
keeps it, in its register and leaves the other registers alone. -/
theorem each_draw_takes_the_next_number (config : Config) (numbers : Nat → Int)
    (calls : List Call) :
    let m := powerOn config (⟨numbers, 0⟩ : Sequence)
    (m.executions calls).map Execution.instruction = m.executed calls ∧
    (m.afterCalls calls).random = ⟨numbers, (Execution.draws (m.executions calls)).length⟩ ∧
    ∀ k x, (Execution.draws (m.executions calls))[k]? = some x →
      x.before.step = .done x.instruction x.after ∧
      x.before.random = ⟨numbers, k⟩ ∧ x.after.random = ⟨numbers, k + 1⟩ ∧
      (x.after.reg x.instruction.x).toNat =
        (numbers k % 256).toNat &&& x.instruction.nn.toNat ∧
      ∀ y, y ≠ x.instruction.x → x.after.reg y = x.before.reg y := by
  intro m
  have position (k : Nat) : RandomSource.after k (⟨numbers, 0⟩ : Sequence) = ⟨numbers, k⟩ := by
    rw [Sequence.after_eq, Nat.zero_add]
  refine ⟨map_executions calls m, ?_, fun k x drawn => ?_⟩
  · rw [random_afterCalls, Execution.length_draws, map_executions]
    exact position _
  · have inOrder : Execution.InOrder (⟨numbers, 0⟩ : Sequence) 0 (m.executions calls) :=
      inOrder_executions calls rfl
    have takes := inOrder k x drawn
    rw [Nat.zero_add] at takes
    have number : RandomSource.stream (⟨numbers, 0⟩ : Sequence) k = numbers k := by
      rw [Sequence.stream_eq, Nat.zero_add]
    refine ⟨takes.step, ?_, ?_, ?_, takes.others⟩
    · rw [takes.before, position]
    · rw [takes.after, position]
    · rw [takes.register, UInt8.toNat_and, RandomSource.toNat_byte, number]

/-- Three draws, of which the first has a mask of zero. A word that is none comes
after the second, and then a reset. -/
def interrupted : List Call :=
  [.event (.load [0xC0, 0x00, 0xC1, 0xF0, 0xFF, 0xFF]), .event .step, .run 5, .event .tick,
    .event (.setKey (.int 3) true), .event .reset, .event (.load [0xC2, 0xFF]), .run 1]

/-- The third puts `1399` modulo `256` in its register. -/
theorem interrupted_third_draw :
    let m := powerOn Config.standard (⟨fun k => 700 * k - 1, 0⟩ : Sequence)
    (m.afterCalls interrupted).random.drawn = 3 ∧
      ∃ x, (Execution.draws (m.executions interrupted))[2]? = some x ∧
        x.instruction = ⟨0xC2FF, .rnd⟩ ∧ (x.after.reg 2).toNat = 119 := by
  obtain ⟨-, drawn, takes⟩ :=
    each_draw_takes_the_next_number Config.standard (fun k => 700 * k - 1) interrupted
  have third : (Execution.draws ((powerOn Config.standard
      (⟨fun k => 700 * k - 1, 0⟩ : Sequence)).executions interrupted))[2]?.map
      Execution.instruction = some ⟨0xC2FF, .rnd⟩ := by decide +kernel
  obtain ⟨x, there, instruction⟩ := Option.map_eq_some_iff.1 third
  obtain ⟨-, -, -, register, -⟩ := takes 2 x there
  rw [instruction] at register
  refine ⟨?_, x, there, instruction, register⟩
  rw [drawn]
  decide +kernel

end Machine

end ChipEight
