/-
# Waiting for a key

`FX0A` puts the least of the pressed keys in its register. While no key is
pressed it comes back to itself, and then a step does nothing but count. So a
machine that waits is told by what its host has done meanwhile: the keys that are
pressed now, the ticks and the number of steps. In which order the keys came, and
which came and went between two steps, it does not know.

Key definitions: `Event.keysAfter`, `Event.isWaiting`, `Event.Unheard`,
`Machine.waited`.
Key theorems: `Machine.step_of_no_key`, `Machine.step_of_keys`,
`Machine.perform_of_waiting`, `Machine.after_of_waiting`,
`Machine.waits_for_the_least_key`.
-/
import ChipEight.Proofs.FrameHistories
import ChipEight.Random.Supply

namespace ChipEight

namespace Event

/-- Whether an event is a step. -/
def isStep : Event → Bool
  | .step => true
  | _ => false

/-- Whether an event sets keys and nothing else. -/
def setsKeys : Event → Bool
  | .setKey _ _ | .releaseKeys => true
  | _ => false

/-- The events of a machine that waits: steps, ticks and keys. -/
def isWaiting (e : Event) : Bool := e.isStep || e.isTick || e.setsKeys

theorem isWaiting_of_setsKeys {e : Event} (h : e.setsKeys) : e.isWaiting := by
  rw [isWaiting, h, Bool.or_true]

/-- The keys that are pressed after an event. -/
def keysAfter (s : Finset Key) : Event → Finset Key
  | .setKey index pressed =>
    match Key.ofJson index with
    | .ok k => if pressed then insert k s else s.erase k
    | .error _ => s
  | .releaseKeys | .reset => ∅
  | .step | .load _ | .tick | .setDelay _ | .setSound _ => s

/-- No key is pressed at any step among some events, if these keys are pressed
before them. -/
def Unheard (s : Finset Key) (es : List Event) : Prop :=
  ∀ front back, es = front ++ .step :: back → front.foldl keysAfter s = ∅

variable {s : Finset Key} {e : Event} {es : List Event}

theorem unheard_nil (s : Finset Key) : Unheard s [] := by
  intro front back split
  cases front with
  | nil => cases split
  | cons => cases split

theorem unheard_cons_iff :
    Unheard s (e :: es) ↔ (e = .step → s = ∅) ∧ Unheard (keysAfter s e) es := by
  constructor
  · intro h
    refine ⟨fun step => h [] es (by rw [step]; rfl), fun front back split => ?_⟩
    exact h (e :: front) back (by rw [split]; rfl)
  · rintro ⟨first, rest⟩ front back split
    cases front with
    | nil =>
      cases split
      exact first rfl
    | cons e' front =>
      cases split
      exact rest front back rfl

theorem Unheard.front {front back : List Event} (h : Unheard s (front ++ back)) :
    Unheard s front := by
  rintro before after rfl
  exact h before (after ++ back) (by simp)

/-! ### Keys alone -/

variable {ks : List Event}

theorem isStep_of_setsKeys (h : e.setsKeys) : e.isStep = false := by
  cases e with
  | step => cases h
  | _ => rfl

theorem isTick_of_setsKeys (h : e.setsKeys) : e.isTick = false := by
  cases e with
  | tick => cases h
  | _ => rfl

theorem countP_of_setsKeys {p : Event → Bool} (other : ∀ e, e.setsKeys → p e = false)
    (keys : ∀ e ∈ ks, e.setsKeys) : ks.countP p = 0 := by
  rw [List.countP_eq_zero]
  intro e he
  simp [other e (keys e he)]

theorem Unheard.append_keys (h : Unheard s es) (keys : ∀ e ∈ ks, e.setsKeys) :
    Unheard s (es ++ ks) := by
  induction es generalizing s with
  | nil =>
    rintro front back split
    have step : Event.step ∈ ks := by
      rw [List.nil_append] at split
      simp [split]
    exact absurd (keys _ step) Bool.false_ne_true
  | cons e es ih =>
    obtain ⟨first, rest⟩ := unheard_cons_iff.1 h
    exact unheard_cons_iff.2 ⟨first, ih rest⟩

end Event

namespace Keypad

/-- Setting the key that a value names is a matter of the set of pressed keys. -/
theorem setKey_eq_ofSet (index : Json) (v : Bool) (p : Keypad) :
    (p.setKey index v).2 = ofSet (Event.keysAfter p.pressedSet (.setKey index v)) := by
  cases named : Key.ofJson index with
  | error f =>
    simp only [setKey, Event.keysAfter, named]
    exact (ofSet_pressedSet p).symm
  | ok k =>
    simp only [setKey, Event.keysAfter, named]
    rw [← pressedSet_set, ofSet_pressedSet]

end Keypad

namespace Machine

variable {σ : Type} {m : Machine σ} {i : Instruction} {e : Event} {es : List Event}

/-- The machine after it has waited through some events. -/
def waited (es : List Event) (m : Machine σ) : Machine σ :=
  { m with
    keypad := .ofSet (es.foldl Event.keysAfter m.keypad.pressedSet)
    timers := m.timers.ticks (es.countP Event.isTick)
    instructionCount := m.instructionCount + es.countP Event.isStep }

theorem waited_nil (m : Machine σ) : m.waited [] = m := by
  simp only [waited, List.foldl_nil, Keypad.ofSet_pressedSet, List.countP_nil, Timers.ticks,
    Nat.add_zero]

theorem waited_append (es fs : List Event) (m : Machine σ) :
    (m.waited es).waited fs = m.waited (es ++ fs) := by
  simp only [waited, Keypad.pressedSet_ofSet, List.foldl_append, List.countP_append,
    Timers.ticks_ticks, Nat.add_assoc]

/-- It waits for the same instruction. -/
theorem Next.waited (here : m.Next i) (es : List Event) : (m.waited es).Next i := by
  simp only [Next, WordAt, Machine.waited]
  exact here

theorem registers_waited (es : List Event) (m : Machine σ) :
    (m.waited es).registers = m.registers := by simp only [waited]

theorem pc_waited (es : List Event) (m : Machine σ) : (m.waited es).pc = m.pc := by
  simp only [waited]

theorem pressedSet_waited (es : List Event) (m : Machine σ) :
    (m.waited es).keypad.pressedSet = es.foldl Event.keysAfter m.keypad.pressedSet :=
  Keypad.pressedSet_ofSet _

/-- Keys that leave the same keys pressed are nothing to it. -/
theorem waited_append_keys {ks : List Event} (keys : ∀ e ∈ ks, e.setsKeys)
    (same : (es ++ ks).foldl Event.keysAfter m.keypad.pressedSet =
      es.foldl Event.keysAfter m.keypad.pressedSet) : m.waited (es ++ ks) = m.waited es := by
  have ticks : ks.countP Event.isTick = 0 :=
    Event.countP_of_setsKeys (fun _ => Event.isTick_of_setsKeys) keys
  have steps : ks.countP Event.isStep = 0 :=
    Event.countP_of_setsKeys (fun _ => Event.isStep_of_setsKeys) keys
  simp only [waited, same, List.countP_append, ticks, steps, Nat.add_zero]

variable [RandomSource σ]

/-! ### One event -/

/-- With no key pressed, the machine comes back to the same instruction. -/
theorem step_of_no_key (here : m.Next i) (op : i.opcode = .ldKey)
    (idle : m.keypad.pressedSet = ∅) : m.step = .done i m.counted := by
  have none : m.past.keypad.firstPressed = .none := Keypad.firstPressed_eq_none_iff.2 idle
  have back : m.past.awaitKey i.x = m := by
    have pc : m.past.pc - Dimensions.instructionSize = m.pc := Int.add_sub_cancel _ _
    simp only [awaitKey, none, pc]
    rfl
  have executed : execute i m.past = .done () m := by simp only [execute, op, back]
  rw [step_of_next here, executed, Attempt.andThen_done]

/-- With keys pressed, the least of them is the one that counts. -/
theorem step_of_keys (here : m.Next i) (op : i.opcode = .ldKey)
    (pressed : m.keypad.pressedSet.Nonempty) :
    m.step = .done i { m with
      registers := m.registers.set i.x (UInt8.ofNat (m.keypad.pressedSet.min' pressed).val)
      pc := m.pc + 2
      instructionCount := m.instructionCount + 1 } := by
  have first : m.past.keypad.firstPressed = some (m.keypad.pressedSet.min' pressed) :=
    Keypad.firstPressed_eq_min' pressed
  have executed : execute i m.past =
      .done () (m.past.withReg i.x (UInt8.ofNat (m.keypad.pressedSet.min' pressed).val)) := by
    simp only [execute, op, awaitKey, first]
  rw [step_of_next here, executed, Attempt.andThen_done]
  rfl

/-- **An event of a machine that waits leaves it waiting.** -/
theorem perform_of_waiting (here : m.Next i) (op : i.opcode = .ldKey) (waits : e.isWaiting)
    (unheard : e = .step → m.keypad.pressedSet = ∅) : (e.perform m).2 = m.waited [e] := by
  cases e with
  | step =>
    have stepped := step_of_no_key here op (unheard rfl)
    have keypad : Keypad.ofSet m.keypad.pressedSet = m.keypad := Keypad.ofSet_pressedSet _
    show m.step.2 = { m with
      keypad := Keypad.ofSet m.keypad.pressedSet
      instructionCount := m.instructionCount + 1 }
    rw [stepped, keypad]
    rfl
  | tick =>
    have keypad : Keypad.ofSet m.keypad.pressedSet = m.keypad := Keypad.ofSet_pressedSet _
    show m.tickTimers = { m.tickTimers with keypad := Keypad.ofSet m.keypad.pressedSet }
    rw [keypad]
    rfl
  | setKey index v =>
    show { m with keypad := (m.keypad.setKey index v).2 } = m.waited [.setKey index v]
    rw [Keypad.setKey_eq_ofSet]
    rfl
  | releaseKeys =>
    have none : Keypad.ofSet ∅ = Keypad.released := by
      rw [← Keypad.pressedSet_released, Keypad.ofSet_pressedSet]
    show { m with keypad := Keypad.released } = { m with keypad := Keypad.ofSet ∅ }
    rw [none]
  | load | setDelay | setSound | reset => cases waits

/-! ### Many events -/

/-- **A machine that waits keeps waiting, as long as no step finds a key.** -/
theorem after_of_waiting : ∀ (es : List Event) {m : Machine σ}, m.Next i → i.opcode = .ldKey →
    (∀ e ∈ es, e.isWaiting) → Event.Unheard m.keypad.pressedSet es → m.after es = m.waited es
  | [], m, _, _, _, _ => (waited_nil m).symm
  | e :: es, m, here, op, waits, unheard => by
    obtain ⟨first, rest⟩ := Event.unheard_cons_iff.1 unheard
    have performed : (e.perform m).2 = m.waited [e] :=
      perform_of_waiting here op (waits e (List.mem_cons_self ..)) first
    have later : (m.waited [e]).after es = (m.waited [e]).waited es := by
      refine after_of_waiting es (here.waited [e]) op
        (fun e he => waits e (List.mem_cons_of_mem _ he)) ?_
      rw [pressedSet_waited]
      exact rest
    calc m.after (e :: es)
        = (m.waited [e]).after es := by rw [after, performed]
      _ = (m.waited [e]).waited es := later
      _ = m.waited (e :: es) := waited_append [e] es m

/-- So does a machine that executes instructions in a row. -/
theorem steps_of_no_key : ∀ (k : Nat) {m : Machine σ}, m.Next i → i.opcode = .ldKey →
    m.keypad.pressedSet = ∅ →
      m.steps k = .done () { m with instructionCount := m.instructionCount + k }
  | 0, _, _, _, _ => rfl
  | k + 1, m, here, op, idle => by
    have there : m.counted.Next i := here
    have rest := steps_of_no_key k there op idle
    rw [steps, step_of_no_key here op idle, Attempt.andThen_done, rest]
    simp only [counted, Nat.add_assoc, Nat.add_comm 1 k]

/-- Every step of a machine that waits is done. -/
theorem step_of_waiting {front back : List Event} (here : m.Next i) (op : i.opcode = .ldKey)
    (waits : ∀ e ∈ front ++ .step :: back, e.isWaiting)
    (unheard : Event.Unheard m.keypad.pressedSet (front ++ .step :: back)) :
    (m.after front).step = .done i (m.after (front ++ [.step])) := by
  have before : m.after front = m.waited front :=
    after_of_waiting front here op (fun e he => waits e (List.mem_append_left _ he)) unheard.front
  have idle : (m.waited front).keypad.pressedSet = ∅ := by
    rw [pressedSet_waited]
    exact unheard front back rfl
  have stepped : (m.waited front).step = .done i (m.waited front).counted :=
    step_of_no_key (here.waited front) op idle
  have answered : (m.after (front ++ [.step])) = (m.after front).step.2 := after_concat front _ m
  rw [answered, before, stepped]

/-- The step that finds keys takes the least of them. -/
theorem step_of_waited (here : m.Next i) (op : i.opcode = .ldKey) (es : List Event)
    (pressed : (es.foldl Event.keysAfter m.keypad.pressedSet).Nonempty) :
    (m.waited es).step = .done i { m.waited es with
      registers := m.registers.set i.x
        (UInt8.ofNat ((es.foldl Event.keysAfter m.keypad.pressedSet).min' pressed).val)
      pc := m.pc + 2
      instructionCount := (m.waited es).instructionCount + 1 } := by
  have keys := pressedSet_waited es m
  have stepped := step_of_keys (here.waited es) op (by rwa [keys])
  simp only [keys, registers_waited, pc_waited] at stepped
  exact stepped

/-- **`FX0A` waits until a step finds a key.** Let it lie at the program counter,
and let no key be pressed. Then a run of any length does nothing but count its
instructions. Steps, ticks and keys in any order, as long as no step finds a key,
do no more than count the steps, tick the timers and set the keys; all the steps
are done. Keys that come and go again are nothing to the machine. If some are
pressed in the end, the next step puts the least of them in the register and goes
on to the next instruction. -/
theorem waits_for_the_least_key (here : m.Next i) (op : i.opcode = .ldKey)
    (idle : ∀ k, m.keypad.isPressed k = false) :
    (∀ n : Nat, m.run n = .done n { m with instructionCount := m.instructionCount + n }) ∧
    ∀ es : List Event, (∀ e ∈ es, e.isWaiting) → Event.Unheard ∅ es →
      m.after es = { m with
        keypad := .ofSet (es.foldl Event.keysAfter ∅)
        timers := m.timers.ticks (es.countP Event.isTick)
        instructionCount := m.instructionCount + es.countP Event.isStep } ∧
      (∀ front back, es = front ++ .step :: back →
        (m.after front).step = .done i (m.after (front ++ [.step]))) ∧
      (∀ ks : List Event, (∀ e ∈ ks, e.setsKeys) →
        (es ++ ks).foldl Event.keysAfter ∅ = es.foldl Event.keysAfter ∅ →
          m.after (es ++ ks) = m.after es) ∧
      ∀ pressed : (es.foldl Event.keysAfter ∅).Nonempty,
        (m.after es).step = .done i { m.after es with
          registers := m.registers.set i.x
            (UInt8.ofNat ((es.foldl Event.keysAfter ∅).min' pressed).val)
          pc := m.pc + 2
          instructionCount := (m.after es).instructionCount + 1 } := by
  have none : m.keypad.pressedSet = ∅ := by
    ext k
    simp [idle]
  have waited (es : List Event) (waits : ∀ e ∈ es, e.isWaiting) (unheard : Event.Unheard ∅ es) :
      m.after es = m.waited es := after_of_waiting es here op waits (by rwa [none])
  refine ⟨fun n => ?_, fun es waits unheard => ⟨?_, ?_, fun ks keys same => ?_, fun pressed => ?_⟩⟩
  · have executed := steps_of_no_key n here op none
    have length : max (n : Int) 0 = n := Int.max_eq_left (Int.natCast_nonneg n)
    rw [run, Int.toNat_natCast, executed, Attempt.andThen_done, length]
  · rw [waited es waits unheard, Machine.waited, none]
  · rintro front back rfl
    exact step_of_waiting here op waits (by rwa [none])
  · have waits' : ∀ e ∈ es ++ ks, e.isWaiting := by
      intro e he
      rcases List.mem_append.1 he with he | he
      · exact waits e he
      · exact Event.isWaiting_of_setsKeys (keys e he)
    rw [waited (es ++ ks) waits' (unheard.append_keys keys), waited es waits unheard]
    exact waited_append_keys keys (by rwa [none])
  · have stepped := step_of_waited here op es (by rwa [none])
    rw [waited es waits unheard]
    simp only [none] at stepped
    exact stepped

/-- A machine that waits at the last word of memory, with both timers running. -/
def waitingAtEnd : Machine Supply :=
  { powerOn Config.standard (.constant 0xAB) with
    memory := Memory.overlay 4094 [0xF5, 0x0A] Memory.initial
    pc := 4094
    timers := ⟨5, 1⟩ }

/-- A key comes and goes before a step, and three come after it, of which one goes. -/
def keysComing : List Event :=
  [.setKey (.int 2) true, .setKey (.int 2) false, .step, .tick, .setKey (.int 9) true,
    .setKey (.int 4) true, .setKey (.int 9) false, .setKey (.int 7) true]

/-- Of the keys `4` and `7` it takes `4`. -/
theorem waitingAtEnd_takes_four :
    waitingAtEnd.Next ⟨0xF50A, .ldKey⟩ ∧ (∀ k, waitingAtEnd.keypad.isPressed k = false) ∧
      (∀ e ∈ keysComing, e.isWaiting) ∧ Event.Unheard ∅ keysComing ∧
      waitingAtEnd.run 3 = .done 3 { waitingAtEnd with instructionCount := 3 } ∧
      ∃ m', (waitingAtEnd.after keysComing).step = .done ⟨0xF50A, .ldKey⟩ m' ∧
        m'.reg 5 = 4 ∧ m'.pc = 4096 ∧ m'.timers = ⟨4, 0⟩ := by
  have here : waitingAtEnd.Next ⟨0xF50A, .ldKey⟩ := by
    refine ⟨⟨by decide, ?_⟩, by decide⟩
    simp [waitingAtEnd, Memory.byteAt, Memory.getElem_overlay]
  have idle : ∀ k, waitingAtEnd.keypad.isPressed k = false := Keypad.isPressed_released
  have waits : ∀ e ∈ keysComing, e.isWaiting := by decide +kernel
  have unheard : Event.Unheard ∅ keysComing := by
    simp only [keysComing, Event.unheard_cons_iff, Event.unheard_nil, reduceCtorEq,
      IsEmpty.forall_iff, forall_const, true_and, and_true]
    decide +kernel
  have pressed : keysComing.foldl Event.keysAfter ∅ = {4, 7} := by decide +kernel
  have any : (keysComing.foldl Event.keysAfter ∅).Nonempty := by
    rw [pressed]
    decide
  have least : (keysComing.foldl Event.keysAfter ∅).min' any = 4 := by
    rw [Finset.min'_eq_iff, pressed]
    decide
  obtain ⟨runs, events⟩ := waits_for_the_least_key here rfl idle
  obtain ⟨after, -, -, takes⟩ := events keysComing waits unheard
  refine ⟨here, idle, waits, unheard, runs 3, _, takes any, ?_, rfl, ?_⟩
  · simp only [least]
    rfl
  · simp only [after]
    rfl

end Machine

end ChipEight
