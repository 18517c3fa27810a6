/-
# Runs and the instruction count

A run is its instructions one after the other, so runs in two parts are the run
in one, and a fault in the first part is the fault of the whole. The count goes
up by one for each instruction that is executed, be it one that only waits, and
not for one that faults.

To say what the count is after any calls, these are taken apart into the events
that they have their machine perform, up to the first of each call that faults.
The count is then the number of steps that were done since the last reset among
them.

Key definitions: `Call.plan`, `Machine.eventsOf`, `Machine.stepsDone`,
`Machine.resetBy`.
Key theorems: `Machine.run_add`, `Machine.after_eventsOf`,
`Machine.count_perform`, `Machine.count_after`,
`Machine.runs_compose_and_count`.
-/
import ChipEight.Proofs.FrameHistories

namespace ChipEight

/-- The events that a call is made of, as far as none of them faults. -/
def Call.plan : Call → List Event
  | .event e => [e]
  | .run count => List.replicate count.toNat .step
  | .frame pace inputs => inputs.plan pace

namespace Machine

variable {σ : Type} [RandomSource σ] {m m' : Machine σ} {f : Fault}

/-! ### Runs in parts -/

/-- A run in two parts is the run in one. -/
theorem run_add {a b : Int} (ha : 0 ≤ a) (hb : 0 ≤ b) (m : Machine σ) :
    m.run (a + b) =
      (m.run a).andThen fun j m => (m.run b).andThen fun k m => .done (j + k) m := by
  have parts : (a + b).toNat = a.toNat + b.toNat := by omega
  have total : max (a + b) 0 = max a 0 + max b 0 := by omega
  unfold run
  rw [parts, total, steps_add, Attempt.andThen_assoc, Attempt.andThen_assoc]
  simp only [Attempt.andThen_done, Attempt.andThen_assoc]

/-- A run that is done counts what it has executed. -/
theorem count_of_run_done {n k : Int} (h : m.run n = .done k m') :
    (m'.instructionCount : Int) = m.instructionCount + max n 0 := by
  obtain ⟨-, is, length, executes⟩ := run_eq_done_iff.1 h
  rw [executes.count]
  omega

/-- A run that faults counts what it has executed before. -/
theorem run_eq_fail_iff_counted {n : Int} :
    m.run n = .fail f m' ↔ ∃ is m₁, (is.length : Int) < n ∧ Executes is m m₁ ∧
      m₁.step = .fail f m' ∧ m'.instructionCount = m.instructionCount + is.length := by
  rw [run_eq_fail_iff]
  constructor
  · rintro ⟨is, m₁, left, executes, fault⟩
    exact ⟨is, m₁, left, executes, fault, (count_of_step_fail fault).trans executes.count⟩
  · rintro ⟨is, m₁, left, executes, fault, -⟩
    exact ⟨is, m₁, left, executes, fault⟩

/-! ### Calls as the events that they perform -/

/-- The events that some calls have the machine perform. Those of a call end with
the first that faults. -/
def eventsOf : List Call → Machine σ → List Event
  | [], _ => []
  | c :: cs, m => m.performed c.plan ++ eventsOf cs (c.perform m).2

theorem snd_run (n : Int) (m : Machine σ) : (m.run n).2 = (m.steps n.toNat).2 := by
  unfold run
  rcases m.steps n.toNat with ⟨_ | _, m'⟩
  · rfl
  · rfl

/-- A call does to its machine what its events do. -/
theorem after_performed_plan (c : Call) (m : Machine σ) :
    m.after (m.performed c.plan) = (c.perform m).2 := by
  cases c with
  | event e =>
    rw [after_performed, Call.plan, carryOut]
    show (Attempt.andThen (e.perform m) _).2 = (e.perform m).2
    rcases e.perform m with ⟨_ | _, m'⟩
    · rfl
    · rfl
  | run n =>
    calc m.after (m.performed (List.replicate n.toNat .step))
        = (m.steps n.toNat).2 := by rw [after_performed, carryOut_steps]
      _ = (m.run n).2 := (snd_run n m).symm
  | frame pace inputs =>
    let c : Console σ := { machine := m, pace := pace }
    show m.after (c.frameEvents inputs) = (c.runFrame inputs).2.machine
    rcases ran : c.runFrame inputs with ⟨f | result, c'⟩
    · exact (Console.accounts_of_frame_fail ran).machine.symm
    · exact (Console.accounts_of_frame_done ran).machine.symm

/-- So do calls one after the other. -/
theorem after_eventsOf : ∀ (calls : List Call) (m : Machine σ),
    m.after (m.eventsOf calls) = m.afterCalls calls
  | [], _ => rfl
  | c :: calls, m => by
    rw [eventsOf, after_append, after_performed_plan, after_eventsOf calls, afterCalls]

/-! ### What is counted -/

/-- How many instructions an event executes: a step that is done executes one. -/
def stepDone (m : Machine σ) : Event → Nat
  | .step =>
    match m.step with
    | (.ok _, _) => 1
    | (.error _, _) => 0
  | _ => 0

/-- How many of some events are steps that are done. -/
def stepsDone : List Event → Machine σ → Nat
  | [], _ => 0
  | e :: es, m => m.stepDone e + stepsDone es (e.perform m).2

/-- The machine that an event resets to, if it is a reset. -/
def resetBy (m : Machine σ) : Event → Option (Machine σ)
  | .reset => some m.reset
  | _ => none

theorem count_step (m : Machine σ) :
    m.step.2.instructionCount = m.instructionCount + m.stepDone .step := by
  unfold stepDone
  rcases stepped : m.step with ⟨f | i, m'⟩
  · exact count_of_step_fail stepped
  · exact count_of_step_done stepped

omit [RandomSource σ] in
theorem count_load (program : List UInt8) (m : Machine σ) :
    (m.load program).2.instructionCount = m.instructionCount := by
  unfold load
  split_ifs
  · rfl
  · rfl

/-- **An event that is no reset counts the step that it does**, if it is one. -/
theorem count_perform {e : Event} (other : m.resetBy e = none) :
    (e.perform m).2.instructionCount = m.instructionCount + m.stepDone e := by
  cases e with
  | step => exact count_step m
  | load program => exact count_load program m
  | reset => cases other
  | setKey | releaseKeys | tick | setDelay | setSound => rfl

theorem eq_reset_of_resetBy {e : Event} {fresh : Machine σ} (h : m.resetBy e = some fresh) :
    (e.perform m).2 = fresh ∧ fresh.instructionCount = 0 := by
  cases e with
  | reset =>
    cases h
    exact ⟨rfl, rfl⟩
  | _ => cases h

/-- **The count is the number of steps that were done since the last reset.** -/
theorem count_after : ∀ (es : List Event) (m : Machine σ),
    (m.after es).instructionCount =
      match m.lastSet resetBy es with
      | some (fresh, later) => fresh.stepsDone later
      | none => m.instructionCount + m.stepsDone es
  | [], _ => rfl
  | e :: es, m => by
    have rest := count_after es (e.perform m).2
    rw [after, rest, lastSet, stepsDone]
    cases (e.perform m).2.lastSet resetBy es with
    | some => rfl
    | none =>
      cases reset : m.resetBy e with
      | some fresh =>
        obtain ⟨same, zero⟩ := eq_reset_of_resetBy reset
        show _ = fresh.stepsDone es
        simp only [same, zero, Nat.zero_add]
      | none =>
        show _ = m.instructionCount + (m.stepDone e + _)
        simp only [count_perform reset, Nat.add_assoc]

/-- **Runs compose, and every instruction that they execute is counted.** A run of
none or less does nothing; a run in two parts is the run in one, so a fault in
the first part is that of the whole and the second is not begun. A run that is
done tells how many instructions it executed and counts as many; one that faults
has executed and counted some, fewer than it was to, and stops at the step that
faults. After any calls, with their faults, the count is the number of steps that
were done since the last reset, or what it was before and those since. -/
theorem runs_compose_and_count (m : Machine σ) :
    (∀ n : Int, n ≤ 0 → m.run n = .done 0 m) ∧
    (∀ a b : Int, 0 ≤ a → 0 ≤ b → m.run (a + b) =
      (m.run a).andThen fun j m => (m.run b).andThen fun k m => .done (j + k) m) ∧
    (∀ n k m', m.run n = .done k m' →
      k = max n 0 ∧ (m'.instructionCount : Int) = m.instructionCount + max n 0) ∧
    (∀ n f m', m.run n = .fail f m' ↔ ∃ is m₁, (is.length : Int) < n ∧ Executes is m m₁ ∧
      m₁.step = .fail f m' ∧ m'.instructionCount = m.instructionCount + is.length) ∧
    ∀ calls : List Call, m.after (m.eventsOf calls) = m.afterCalls calls ∧
      (m.afterCalls calls).instructionCount =
        match m.lastSet resetBy (m.eventsOf calls) with
        | some (fresh, later) => fresh.stepsDone later
        | none => m.instructionCount + m.stepsDone (m.eventsOf calls) := by
  refine ⟨fun n h => run_of_nonpositive h m, fun a b ha hb => run_add ha hb m,
    fun n k m' done => ?_, fun n f m' => run_eq_fail_iff_counted, fun calls => ?_⟩
  · exact ⟨(run_eq_done_iff.1 done).1, count_of_run_done done⟩
  · rw [← after_eventsOf calls m]
    exact ⟨rfl, count_after (m.eventsOf calls) m⟩

/-- One word is left in memory, so the second instruction is not fetched. After
the reset a program waits for a key, and the wait is counted. -/
theorem filled_counts_until_the_end :
    let m := filled 0 0xFFE 0
    let calls := [.run 2, .event .reset, .event (.load [0xF0, 0x0A]), .run 1]
    m.run (-1) = .done 0 m ∧
      (∃ m₁, m.run 1 = .done 1 m₁ ∧ m₁.instructionCount = 1) ∧
      (∃ m₂, m.run (1 + 1) = .fail (.fetchOutOfRange 0x1000) m₂ ∧
        (m.run 1).andThen (fun j m => (m.run 1).andThen fun k m => .done (j + k) m) =
          .fail (.fetchOutOfRange 0x1000) m₂) ∧
      (m.afterCalls calls).instructionCount = 1 := by
  intro m calls
  obtain ⟨idle, parts, done, -, history⟩ := runs_compose_and_count m
  have ran : (m.run 1).1 = .ok 1 := by decide +kernel
  have ran := Attempt.eq_done_of_fst ran
  have stopped : (m.run (1 + 1)).1 = .error (.fetchOutOfRange 0x1000) := by decide +kernel
  have stopped := Attempt.eq_fail_of_fst stopped
  refine ⟨idle (-1) (by decide), ⟨_, ran, ?_⟩, ⟨_, stopped, ?_⟩, ?_⟩
  · have counted := (done 1 1 _ ran).2
    have before : m.instructionCount = 0 := rfl
    omega
  · rw [← parts 1 1 (by decide) (by decide), stopped]
  · rw [(history calls).2]
    decide +kernel

end Machine

end ChipEight
