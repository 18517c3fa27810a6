/-
# Frames and their parts

A frame that completes is its parts one after the other: the keys are set, a
batch of instructions is executed, the timers tick once, and the frame is
counted. A frame that faults stops at a value that names no key, at a batch
whose size is no whole number, or at an instruction; what was done up to there
stays, and there is neither a tick nor a count (`FrameInputs.Stops`).

Frames one after the other stop at the first that faults; those before it have
completed, and those after it are not begun.

Key definitions: `FrameInputs.Keyed`, `FrameInputs.BadKey`, `FrameInputs.Budget`,
`FrameInputs.Stops`, `Machine.withKeys`.
Key theorems: `Console.runMachine_eq_done_iff`,
`Console.runMachine_eq_fail_iff`, `Console.runFrame_eq_fail_iff`,
`Console.runFrames_eq_fail_iff`, `Console.frame_is_its_parts`.
-/
import ChipEight.Proofs.Executions
import ChipEight.Proofs.PressedKeys

namespace ChipEight

/-! ### Keys and batches -/

/-- The machine with these keys pressed and no others. -/
def Machine.withKeys {σ : Type} (m : Machine σ) (keys : Finset Key) : Machine σ :=
  { m with keypad := .ofSet keys }

namespace Config

theorem atLeastOne_ne_bool (n : Number) (b : Bool) : atLeastOne n ≠ .bool b := by
  cases n with
  | real x =>
    simp only [atLeastOne]
    split_ifs <;> simp
  | int | bool => simp [atLeastOne]

theorem instructionsPerFrame_ne_bool (c : Config) (b : Bool) :
    c.instructionsPerFrame ≠ .ok (.bool b) := by
  unfold instructionsPerFrame
  cases floorRatio c.instructionsPerSecond c.timerHz with
  | error e => simp [Except.map]
  | ok n => simp [Except.map, atLeastOne_ne_bool]

end Config

namespace FrameInputs

/-- The keys that are still pressed when a frame begins. -/
def heldOver (inputs : FrameInputs) (p : Keypad) : Finset Key :=
  if inputs.releaseAll then ∅ else p.pressedSet

/-- All values of the frame name keys, and these keys are pressed when they are
released and pressed. -/
def Keyed (inputs : FrameInputs) (p : Keypad) (keys : Finset Key) : Prop :=
  ∃ gone new, Key.Names inputs.release gone ∧ Key.Names inputs.press new ∧
    keys = inputs.heldOver p \ gone.toFinset ∪ new.toFinset

/-- A value of the frame is the first that names no key, and these keys are
pressed when the values before it have been read. -/
inductive BadKey (inputs : FrameInputs) (p : Keypad) (f : Fault) : Finset Key → Prop
  /-- It is among those to release. -/
  | release {front back : List Json} {v : Json} {gone : List Key}
      (first : inputs.release = front ++ v :: back) (names : Key.Names front gone)
      (bad : Key.ofJson v = .error f) : inputs.BadKey p f (inputs.heldOver p \ gone.toFinset)
  /-- It is among those to press. -/
  | press {front back : List Json} {v : Json} {gone new : List Key}
      (released : Key.Names inputs.release gone) (first : inputs.press = front ++ v :: back)
      (names : Key.Names front new) (bad : Key.ofJson v = .error f) :
      inputs.BadKey p f (inputs.heldOver p \ gone.toFinset ∪ new.toFinset)

/-- How many instructions the frame is to run: what it says itself, be it zero
or less, and otherwise what the pace says. -/
def Budget (inputs : FrameInputs) (pace : Config) (b : Int) : Prop :=
  inputs.instructions = some b ∨
    inputs.instructions = none ∧ pace.instructionsPerFrame = .ok (.int b)

theorem budget_eq_ok_iff {inputs : FrameInputs} {pace : Config} {b : Int} :
    Console.budget inputs pace = .ok b ↔ inputs.Budget pace b := by
  unfold Console.budget Budget
  cases inputs.instructions with
  | some n => simp
  | none =>
    cases e : pace.instructionsPerFrame with
    | error => simp
    | ok n =>
      cases n with
      | bool b => exact absurd e (pace.instructionsPerFrame_ne_bool b)
      | int | real => simp [Number.toJson, Json.wholeNumber?]

theorem pressedSet_heldOver (inputs : FrameInputs) (p : Keypad) :
    (if inputs.releaseAll then Keypad.released else p).pressedSet = inputs.heldOver p := by
  unfold heldOver
  split_ifs
  · exact Keypad.pressedSet_released
  · rfl

theorem setEach_heldOver (inputs : FrameInputs) (p : Keypad) (gone : List Key) :
    (if inputs.releaseAll then Keypad.released else p).setEach false gone =
      .ofSet (inputs.heldOver p \ gone.toFinset) := by
  rw [Keypad.setEach_false, pressedSet_heldOver]

theorem setEach_setEach_heldOver (inputs : FrameInputs) (p : Keypad) (gone new : List Key) :
    ((if inputs.releaseAll then Keypad.released else p).setEach false gone).setEach true new =
      .ofSet (inputs.heldOver p \ gone.toFinset ∪ new.toFinset) := by
  rw [setEach_heldOver, Keypad.setEach_true, Keypad.pressedSet_ofSet]

theorem applyKeys_eq_done_iff {inputs : FrameInputs} {p q : Keypad} :
    Console.applyKeys inputs p = .done () q ↔ ∃ keys, inputs.Keyed p keys ∧ q = .ofSet keys := by
  rw [Console.applyKeys, Keypad.apply, Attempt.andThen_eq_done_iff]
  constructor
  · rintro ⟨⟨⟩, p', released, pressed⟩
    obtain ⟨gone, names, rfl⟩ := Keypad.setKeys_eq_done_iff.1 released
    obtain ⟨new, names', rfl⟩ := Keypad.setKeys_eq_done_iff.1 pressed
    exact ⟨_, ⟨gone, new, names, names', rfl⟩, setEach_setEach_heldOver ..⟩
  · rintro ⟨-, ⟨gone, new, names, names', rfl⟩, rfl⟩
    rw [← setEach_setEach_heldOver]
    exact ⟨(), _, Keypad.setKeys_of_names false names _, Keypad.setKeys_of_names true names' _⟩

theorem applyKeys_eq_fail_iff {inputs : FrameInputs} {f : Fault} {p q : Keypad} :
    Console.applyKeys inputs p = .fail f q ↔
      ∃ keys, inputs.BadKey p f keys ∧ q = .ofSet keys := by
  rw [Console.applyKeys, Keypad.apply, Attempt.andThen_eq_fail_iff]
  constructor
  · rintro (fault | ⟨⟨⟩, p', released, fault⟩)
    · obtain ⟨front, v, back, gone, first, names, bad, rfl⟩ := Keypad.setKeys_eq_fail_iff.1 fault
      exact ⟨_, .release first names bad, setEach_heldOver ..⟩
    · obtain ⟨gone, names, rfl⟩ := Keypad.setKeys_eq_done_iff.1 released
      obtain ⟨front, v, back, new, first, names', bad, rfl⟩ := Keypad.setKeys_eq_fail_iff.1 fault
      exact ⟨_, .press names first names' bad, setEach_setEach_heldOver ..⟩
  · rintro ⟨-, ⟨first, names, bad⟩ | ⟨names, first, names', bad⟩, rfl⟩
    · rw [← setEach_heldOver, first]
      exact .inl (Keypad.setKeys_of_bad false bad _ names _)
    · rw [← setEach_setEach_heldOver, first]
      exact .inr ⟨(), _, Keypad.setKeys_of_names false names _,
        Keypad.setKeys_of_bad true bad _ names' _⟩

variable {σ : Type} [RandomSource σ]

/-- How a frame on a machine comes to a fault, and the machine that is left. -/
inductive Stops (inputs : FrameInputs) (pace : Config) (m : Machine σ) : Fault → Machine σ → Prop
  /-- A value names no key. The keys before it are set. -/
  | key {keys : Finset Key} {f : Fault} (bad : inputs.BadKey m.keypad f keys) :
      inputs.Stops pace m f (m.withKeys keys)
  /-- The size of the batch is no whole number. The keys are set. -/
  | budget {keys : Finset Key} {f : Fault} (keyed : inputs.Keyed m.keypad keys)
      (bad : Console.budget inputs pace = .error f) : inputs.Stops pace m f (m.withKeys keys)
  /-- An instruction of the batch faults. The keys are set, and the instructions
  before it are executed and counted. -/
  | instruction {keys : Finset Key} {b : Int} {is : List Instruction} {m₁ m' : Machine σ} {f : Fault}
      (keyed : inputs.Keyed m.keypad keys) (budget : inputs.Budget pace b)
      (left : (is.length : Int) < b) (executes : Machine.Executes is (m.withKeys keys) m₁)
      (fault : m₁.step = .fail f m')
      (count : m'.instructionCount = m.instructionCount + is.length) : inputs.Stops pace m f m'

end FrameInputs

namespace Console

open Machine

variable {σ : Type} [RandomSource σ] {m m' : Machine σ} {inputs : FrameInputs} {pace : Config}
  {f : Fault}

omit [RandomSource σ] in
theorem onKeypad_eq_iff {α : Type} {g : Keypad → Attempt Keypad α} {r : Except Fault α} :
    m.onKeypad g = (r, m') ↔ ∃ q, g m.keypad = (r, q) ∧ m' = { m with keypad := q } := by
  unfold onKeypad
  rcases g m.keypad with ⟨r', q⟩
  simp [eq_comm]

omit [RandomSource σ] in
theorem onKeypad_applyKeys_eq_done_iff :
    m.onKeypad (applyKeys inputs) = .done () m' ↔
      ∃ keys, inputs.Keyed m.keypad keys ∧ m' = m.withKeys keys := by
  rw [onKeypad_eq_iff]
  constructor
  · rintro ⟨q, applied, rfl⟩
    obtain ⟨keys, keyed, rfl⟩ := FrameInputs.applyKeys_eq_done_iff.1 applied
    exact ⟨keys, keyed, rfl⟩
  · rintro ⟨keys, keyed, rfl⟩
    exact ⟨_, FrameInputs.applyKeys_eq_done_iff.2 ⟨keys, keyed, rfl⟩, rfl⟩

omit [RandomSource σ] in
theorem onKeypad_applyKeys_eq_fail_iff :
    m.onKeypad (applyKeys inputs) = .fail f m' ↔
      ∃ keys, inputs.BadKey m.keypad f keys ∧ m' = m.withKeys keys := by
  rw [onKeypad_eq_iff]
  constructor
  · rintro ⟨q, fault, rfl⟩
    obtain ⟨keys, bad, rfl⟩ := FrameInputs.applyKeys_eq_fail_iff.1 fault
    exact ⟨keys, bad, rfl⟩
  · rintro ⟨keys, bad, rfl⟩
    exact ⟨_, FrameInputs.applyKeys_eq_fail_iff.2 ⟨keys, bad, rfl⟩, rfl⟩

/-! ### One frame -/

/-- A frame gets to its tick if its values name keys, its batch has a size and
its instructions can be executed. -/
theorem runMachine_eq_done_iff {n : Int} :
    runMachine inputs pace m = .done n m' ↔ ∃ keys b is, inputs.Keyed m.keypad keys ∧
      inputs.Budget pace b ∧ Executes is (m.withKeys keys) m' ∧ (is.length : Int) = max b 0 ∧
      n = max b 0 := by
  rw [runMachine, Attempt.andThen_eq_done_iff]
  constructor
  · rintro ⟨⟨⟩, m₁, set, ran⟩
    obtain ⟨keys, keyed, rfl⟩ := onKeypad_applyKeys_eq_done_iff.1 set
    cases size : budget inputs pace with
    | error f =>
      rw [size] at ran
      cases ran
    | ok b =>
      rw [size] at ran
      obtain ⟨rfl, is, length, executes⟩ := run_eq_done_iff.1 ran
      exact ⟨keys, b, is, keyed, FrameInputs.budget_eq_ok_iff.1 size, executes, length, rfl⟩
  · rintro ⟨keys, b, is, keyed, size, executes, length, rfl⟩
    refine ⟨(), _, onKeypad_applyKeys_eq_done_iff.2 ⟨keys, keyed, rfl⟩, ?_⟩
    rw [FrameInputs.budget_eq_ok_iff.2 size]
    exact run_eq_done_iff.2 ⟨rfl, is, length, executes⟩

/-- Otherwise it stops. -/
theorem runMachine_eq_fail_iff :
    runMachine inputs pace m = .fail f m' ↔ inputs.Stops pace m f m' := by
  rw [runMachine, Attempt.andThen_eq_fail_iff]
  constructor
  · rintro (fault | ⟨⟨⟩, m₁, set, ran⟩)
    · obtain ⟨keys, bad, rfl⟩ := onKeypad_applyKeys_eq_fail_iff.1 fault
      exact .key bad
    · obtain ⟨keys, keyed, rfl⟩ := onKeypad_applyKeys_eq_done_iff.1 set
      cases size : budget inputs pace with
      | error g =>
        rw [size] at ran
        cases ran
        exact .budget keyed size
      | ok b =>
        rw [size] at ran
        obtain ⟨is, m₁, left, executes, fault⟩ := run_eq_fail_iff.1 ran
        have count := (count_of_step_fail fault).trans executes.count
        exact .instruction keyed (FrameInputs.budget_eq_ok_iff.1 size) left executes fault count
  · intro stops
    cases stops with
    | key bad => exact .inl (onKeypad_applyKeys_eq_fail_iff.2 ⟨_, bad, rfl⟩)
    | budget keyed bad =>
      refine .inr ⟨(), _, onKeypad_applyKeys_eq_done_iff.2 ⟨_, keyed, rfl⟩, ?_⟩
      rw [bad]
    | instruction keyed size left executes fault count =>
      refine .inr ⟨(), _, onKeypad_applyKeys_eq_done_iff.2 ⟨_, keyed, rfl⟩, ?_⟩
      rw [FrameInputs.budget_eq_ok_iff.2 size]
      exact run_eq_fail_iff.2 ⟨_, _, left, executes, fault⟩

variable {c c' : Console σ}

theorem runFrame_eq_done_iff {result : FrameResult} :
    c.runFrame inputs = .done result c' ↔ ∃ n m, runMachine inputs c.pace c.machine = .done n m ∧
      result = ⟨n, m.tickTimers.soundActive, m.tickTimers.snapshot⟩ ∧
      c' = ⟨m.tickTimers, c.pace, c.frameCount + 1⟩ := by
  unfold runFrame onMachine
  rcases runMachine inputs c.pace c.machine with ⟨_ | n, m⟩
  · simp [Attempt.andThen]
  · simp [Attempt.andThen, eq_comm]

theorem runFrame_eq_fail_iff :
    c.runFrame inputs = .fail f c' ↔
      ∃ m, inputs.Stops c.pace c.machine f m ∧ c' = { c with machine := m } := by
  simp only [← runMachine_eq_fail_iff]
  unfold runFrame onMachine
  rcases runMachine inputs c.pace c.machine with ⟨_ | n, m⟩
  · simp [Attempt.andThen, eq_comm]
  · simp [Attempt.andThen]

/-- **A completed frame is its parts in order.** It completes with that result
and that console just if its values name keys, its batch has a size, and as many
instructions (none, if the size is below zero) can be executed on the machine
with those keys pressed; then the timers tick once and the frame is counted.
To run no frames does nothing, to run some is to run the first and then the others,
and frames in two parts are the frames in one. -/
theorem frame_is_its_parts (c : Console σ) :
    (∀ inputs result c', c.runFrame inputs = .done result c' ↔ ∃ keys b is m,
      inputs.Keyed c.machine.keypad keys ∧ inputs.Budget c.pace b ∧
        Executes is (c.machine.withKeys keys) m ∧ (is.length : Int) = max b 0 ∧
        result = ⟨max b 0, decide (0 < m.tickTimers.timers.sound), m.tickTimers.snapshot⟩ ∧
        c' = ⟨m.tickTimers, c.pace, c.frameCount + 1⟩) ∧
    c.runFrames [] = .done [] c ∧
    (∀ inputs rest, c.runFrames (inputs :: rest) = (c.runFrame inputs).andThen fun result c =>
      (c.runFrames rest).andThen fun results c => .done (result :: results) c) ∧
    ∀ fs gs : List FrameInputs, c.runFrames (fs ++ gs) = (c.runFrames fs).andThen fun rs c =>
      (c.runFrames gs).andThen fun ss c => .done (rs ++ ss) c := by
  refine ⟨fun inputs result c' => ?_, rfl, fun _ _ => rfl, fun fs gs => c.runFrames_append fs gs⟩
  rw [runFrame_eq_done_iff]
  constructor
  · rintro ⟨n, m, ran, rfl, rfl⟩
    obtain ⟨keys, b, is, keyed, size, executes, length, rfl⟩ := runMachine_eq_done_iff.1 ran
    exact ⟨keys, b, is, m, keyed, size, executes, length, rfl, rfl⟩
  · rintro ⟨keys, b, is, m, keyed, size, executes, length, rfl, rfl⟩
    have ran := runMachine_eq_done_iff.2 ⟨keys, b, is, keyed, size, executes, length, rfl⟩
    exact ⟨_, m, ran, rfl, rfl⟩

/-! ### Frames one after the other -/

/-- Frames that fault are some that complete and one that stops; those after it
are not begun. -/
theorem runFrames_eq_fail_iff : ∀ {list : List FrameInputs} {c : Console σ},
    c.runFrames list = .fail f c' ↔ ∃ front inputs back results c₁,
      list = front ++ inputs :: back ∧ c.runFrames front = .done results c₁ ∧
        c₁.runFrame inputs = .fail f c'
  | [], c => by simp [runFrames]
  | inputs :: list, c => by
    rw [runFrames, Attempt.andThen_eq_fail_iff]
    constructor
    · rintro (fault | ⟨result, c₁, first, rest⟩)
      · exact ⟨[], inputs, list, [], c, rfl, rfl, fault⟩
      · rcases Attempt.andThen_eq_fail_iff.1 rest with fault | ⟨results, c₂, -, done⟩
        · obtain ⟨front, j, back, results, c₂, rfl, before, fault⟩ := runFrames_eq_fail_iff.1 fault
          refine ⟨inputs :: front, j, back, result :: results, c₂, rfl, ?_, fault⟩
          rw [runFrames, first, Attempt.andThen_done, before, Attempt.andThen_done]
        · cases done
    · rintro ⟨_ | ⟨i, front⟩, j, back, results, c₁, split, before, fault⟩
      · cases split
        cases before
        exact .inl fault
      · cases split
        obtain ⟨result, c₂, first, rest⟩ := Attempt.andThen_eq_done_iff.1 before
        obtain ⟨results', c₃, before, done⟩ := Attempt.andThen_eq_done_iff.1 rest
        cases done
        have later := runFrames_eq_fail_iff.2 ⟨front, j, back, results', c₁, rfl, before, fault⟩
        exact .inr ⟨result, c₂, first, Attempt.andThen_eq_fail_iff.2 (.inl later)⟩

end Console

end ChipEight
