/-
# What the timers show

Each timer shows what it was last set to, less the ticks since then, and zero
when those are more. It is set by an instruction of its own, by the host, and to
zero by a reset; all else leaves it alone but for the ticks. What sets the one
timer is nothing to the other.

Key definitions: `Timer`, `Timer.value`, `Timer.setTo`.
Key theorems: `Timer.value_perform`, `Timer.foldl_afterEvent`,
`Machine.timers_count_down_from_last_setting`.
-/
import ChipEight.Proofs.Bounds
import ChipEight.Proofs.FrameHistories

namespace ChipEight

/-- The two timers. -/
inductive Timer where
  | delay
  | sound
  deriving DecidableEq, Repr

namespace Timer

/-- What a timer shows. -/
def value : Timer → Timers → Int
  | delay, t => t.delay
  | sound, t => t.sound

/-- The instructions that set it: `FX15` the delay timer, `FX18` the sound timer. -/
def setter : Timer → Opcode
  | delay => .ldDtVx
  | sound => .ldStVx

/-- The cell that it is in. -/
def cell : Timer → Cell
  | delay => .delay
  | sound => .sound

section

variable {σ : Type} [RandomSource σ]

/-- What an event sets a timer to, if it sets it. -/
def setTo (T : Timer) (m : Machine σ) : Event → Option Int
  | .step =>
    match m.step with
    | (.ok i, _) => if i.opcode = T.setter then some (m.reg i.x).toNat else none
    | (.error _, _) => none
  | .setDelay v => if T = delay then some (v % 256) else none
  | .setSound v => if T = sound then some (v % 256) else none
  | .reset => some 0
  | .load _ | .setKey _ _ | .releaseKeys | .tick => none

end

/-- What an event that does not set a timer makes of it. -/
def afterEvent (v : Int) (e : Event) : Int := if e.isTick then Timers.countDown v else v

/-- The ticks among some events take a timer down to zero and no further. -/
theorem foldl_afterEvent : ∀ (es : List Event) {v : Int}, 0 ≤ v →
    es.foldl afterEvent v = max 0 (v - es.countP Event.isTick)
  | [], v, h => by
    rw [List.foldl_nil, List.countP_nil]
    omega
  | e :: es, v, h => by
    rw [List.foldl_cons]
    by_cases tick : e.isTick
    · have next : afterEvent v e = Timers.countDown v := if_pos tick
      have nonneg : 0 ≤ Timers.countDown v := by unfold Timers.countDown; split_ifs <;> omega
      rw [next, foldl_afterEvent es nonneg, List.countP_cons_of_pos tick]
      unfold Timers.countDown
      split_ifs
      · push_cast
        omega
      · push_cast
        omega
    · have next : afterEvent v e = v := if_neg tick
      rw [next, foldl_afterEvent es h, List.countP_cons_of_neg tick]

variable {σ : Type} {m m' : Machine σ} {i : Instruction} {v : Int}

/-! ### One event -/

theorem value_eq_of_sameAt (T : Timer) (h : m.SameAt m' T.cell) :
    T.value m'.timers = T.value m.timers := by
  cases T with
  | delay => exact h
  | sound => exact h

theorem writes_cell_iff (T : Timer) : i.Writes m T.cell ↔ i.opcode = T.setter := by
  cases T with
  | delay => exact Instruction.writes_delay_iff
  | sound => exact Instruction.writes_sound_iff

theorem value_tick (T : Timer) (t : Timers) : T.value t.tick = Timers.countDown (T.value t) := by
  cases T with
  | delay => rfl
  | sound => rfl

variable [RandomSource σ]

/-- The instruction that sets a timer never faults. -/
theorem execute_setter (T : Timer) (op : i.opcode = T.setter) :
    ∃ m', Machine.execute i m = .done () m' ∧ T.value m'.timers = (m.reg i.x).toNat := by
  cases T with
  | delay =>
    have op : i.opcode = .ldDtVx := op
    exact ⟨_, by simp only [Machine.execute, op]; rfl, rfl⟩
  | sound =>
    have op : i.opcode = .ldStVx := op
    exact ⟨_, by simp only [Machine.execute, op]; rfl, rfl⟩

theorem setTo_of_done (T : Timer) (h : m.step = .done i m') :
    T.setTo m .step = if i.opcode = T.setter then some ((m.reg i.x).toNat : Int) else none := by
  simp only [setTo, h]

theorem value_step (T : Timer) (m : Machine σ) :
    T.value m.step.2.timers = (T.setTo m .step).getD (T.value m.timers) := by
  by_cases set : ∃ i, m.Next i ∧ i.opcode = T.setter
  · obtain ⟨i, here, op⟩ := set
    obtain ⟨m', executed, shown⟩ := T.execute_setter (m := m.past) op
    have done : m.step = .done i m'.counted := by
      rw [Machine.step_of_next here, executed, Attempt.andThen_done]
    rw [T.setTo_of_done done, if_pos op, done]
    exact shown
  · have unset : T.setTo m .step = none := by
      rcases stepped : m.step with ⟨f | i, m'⟩
      · simp only [setTo, stepped]
      · rw [T.setTo_of_done stepped]
        exact if_neg fun op => set ⟨i, (Machine.of_step_done stepped).1, op⟩
    have notPc : T.cell ≠ .pc := by cases T <;> simp [cell]
    have notCount : T.cell ≠ .count := by cases T <;> simp [cell]
    rw [unset]
    exact T.value_eq_of_sameAt (Machine.sameAt_step notPc notCount fun i here write =>
      set ⟨i, here, T.writes_cell_iff.1 write⟩)

/-- **An event sets a timer, or else only a tick takes it down.** -/
theorem value_perform (T : Timer) (e : Event) (m : Machine σ) :
    T.value (e.perform m).2.timers = (T.setTo m e).getD (afterEvent (T.value m.timers) e) := by
  cases e with
  | step => exact T.value_step m
  | load program =>
    show T.value (m.load program).2.timers = T.value m.timers
    unfold Machine.load
    split_ifs
    · rfl
    · rfl
  | tick => exact T.value_tick m.timers
  | setKey | releaseKeys => rfl
  | setDelay v | setSound v | reset =>
    cases T with
    | delay => rfl
    | sound => rfl

theorem setTo_nonneg {T : Timer} {e : Event} (h : T.setTo m e = some v) : 0 ≤ v := by
  cases e with
  | step =>
    rcases stepped : m.step with ⟨f | i, m'⟩
    · simp [setTo, stepped] at h
    · rw [T.setTo_of_done stepped, Option.ite_none_right_eq_some] at h
      have byte := Option.some.inj h.2
      omega
  | setDelay w | setSound w =>
    simp only [setTo, Option.ite_none_right_eq_some, Option.some.injEq] at h
    omega
  | reset =>
    have zero : 0 = v := Option.some.inj h
    omega
  | load | setKey | releaseKeys | tick => cases h

theorem value_nonneg_perform {T : Timer} (e : Event) (m : Machine σ) (h : 0 ≤ T.value m.timers) :
    0 ≤ T.value (e.perform m).2.timers := by
  rw [value_perform]
  cases set : T.setTo m e with
  | some v => exact setTo_nonneg set
  | none =>
    have next := foldl_afterEvent [e] h
    rw [List.foldl_cons, List.foldl_nil] at next
    rw [Option.getD_none, next]
    omega

/-! ### Histories -/

theorem value_after (T : Timer) (es : List Event) (h : 0 ≤ T.value m.timers) :
    T.value (m.after es).timers =
      match m.lastSet T.setTo es with
      | some (v, later) => max 0 (v - later.countP Event.isTick)
      | none => max 0 (T.value m.timers - es.countP Event.isTick) := by
  rw [Machine.part_after (fun m : Machine σ => T.value m.timers) afterEvent value_nonneg_perform
    (fun e m _ => T.value_perform e m) es h]
  cases last : m.lastSet T.setTo es with
  | none => exact foldl_afterEvent es h
  | some last' =>
    obtain ⟨v, later⟩ := last'
    obtain ⟨front, e, -, set⟩ := Machine.exists_of_lastSet last
    exact foldl_afterEvent later (setTo_nonneg set)

end Timer

namespace Machine

variable {σ : Type} [RandomSource σ]

theorem value_nonneg_afterCalls (T : Timer) (config : Config) (random : σ) (history : List Call) :
    0 ≤ T.value ((powerOn config random).afterCalls history).timers := by
  obtain ⟨es, e⟩ := reaches_afterCalls history (powerOn config random)
  rw [← e]
  refine after_invariant Timer.value_nonneg_perform es ?_
  cases T with
  | delay => exact Int.le_refl 0
  | sound => exact Int.le_refl 0

/-- **No tick is lost and none is made up.** Whatever has led to the machine and
whatever events come then, each timer shows what the last event that set it set
it to, less the ticks after that event, and no less than zero; where no event
sets it, it goes on from what it showed, which is zero when the machine is
switched on. The tone sounds while the sound timer is above zero. -/
theorem timers_count_down_from_last_setting (config : Config) (random : σ) (history : List Call)
    (es : List Event) :
    let m := (powerOn config random).afterCalls history
    (∀ T : Timer,
      T.value (powerOn config random).timers = 0 ∧
      T.value (m.after es).timers =
        match m.lastSet T.setTo es with
        | some (v, later) => max 0 (v - later.countP Event.isTick)
        | none => max 0 (T.value m.timers - es.countP Event.isTick)) ∧
    ((m.after es).soundActive ↔ 0 < (m.after es).timers.sound) := by
  intro m
  refine ⟨fun T => ⟨?_, ?_⟩, ?_⟩
  · cases T with
    | delay => rfl
    | sound => rfl
  · exact T.value_after es (value_nonneg_afterCalls T config random history)
  · exact decide_eq_true_iff

end Machine

end ChipEight
