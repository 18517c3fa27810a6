/-
# What stays in bounds

The bounds that hold of a machine in every history, whatever faults it holds:
program counter, index, timers and stack slots. The program counter may leave
memory, by at most a jump from the greatest register value (`0x10FE`); the
slots hold what a call has put there, and a call is only ever executed from
inside memory, so they are between `2` and `4096`. Of that the return needs the
live slots alone, but a slot that dies keeps its value, so the invariant speaks
of all of them.

The sizes of the parts are in their types, and the writes into memory do not
hang on it: each replaces a span by as many bytes.

Key definitions: `Machine.Bounded`, `Machine.Sized`.
Key theorems: `Machine.Bounded.execute`, `Machine.WellFormed.perform`,
`Machine.Bounded.perform`, `Machine.bounded_in_every_history`.
-/
import ChipEight.Proofs.MemoryWrites
import ChipEight.Random.Supply

namespace ChipEight

/-- A number that a call can have put on the stack. -/
def IsReturnAddress (a : Int) : Prop := 2 ≤ a ∧ a ≤ 4096

namespace Machine

variable {σ : Type} {m : Machine σ} {i : Instruction}

/-- The invariant of every history. -/
structure Bounded (m : Machine σ) : Prop extends m.WellFormed where
  live : ∀ k : Fin 16, k.val < m.sp.val → IsReturnAddress (m.stack.get k)
  slots : ∀ k : Fin 16, m.stack.get k = 0 ∨ IsReturnAddress (m.stack.get k)
  pc : 0 ≤ m.pc ∧ m.pc ≤ 0x10FE
  index : 0 ≤ m.index ∧ m.index ≤ 0xFFFF

/-- The parts of the machine have their sizes. -/
structure Sized (m : Machine σ) : Prop where
  memory : m.memory.toList.length = 4096
  registers : m.registers.toList.length = 16
  stack : m.stack.toList.length = 16
  sp : m.sp.val ≤ 16
  rows : m.display.rows.toList.length = 32
  columns : ∀ row ∈ m.display.rows.toList, row.toList.length = 64
  keys : m.keypad.states.length = 16

theorem sized (m : Machine σ) : m.Sized where
  memory := Vector.length_toList
  registers := Vector.length_toList
  stack := Vector.length_toList
  sp := Nat.le_of_lt_succ m.sp.isLt
  rows := Vector.length_toList
  columns := fun _ _ => Vector.length_toList
  keys := Vector.length_toList

theorem bounded_powerOn {config : Config}
    (whole : config.onesModulus = .ten ∨ config.onesModulus = .hundred) (random : σ) :
    (powerOn config random).Bounded where
  delay := by simp [powerOn]
  sound := by simp [powerOn]
  modulus := whole
  live k hk := by simp [powerOn] at hk
  slots k := .inl (Vector.getElem_replicate k.isLt)
  pc := by simp [powerOn, Dimensions.programStart]
  index := by simp [powerOn]

/-! ### Small changes -/

theorem isReturnAddress_past (hn : m.Next i) : IsReturnAddress m.past.pc := by
  have range := hn.1.1
  have hpast : m.past.pc = m.pc + 2 := rfl
  exact ⟨by omega, by omega⟩

theorem Bounded.past (h : m.Bounded) {w : UInt16} (hw : m.WordAt w) : m.past.Bounded where
  toWellFormed := h.toWellFormed.past
  live := h.live
  slots := h.slots
  pc := by
    have range := hw.1
    have hpast : m.past.pc = m.pc + 2 := rfl
    omega
  index := h.index

theorem Bounded.counted (h : m.Bounded) : m.counted.Bounded :=
  { h with }

theorem Bounded.load (h : m.Bounded) (program : List UInt8) : (m.load program).2.Bounded := by
  unfold Machine.load
  split_ifs
  · exact h
  · exact { h with }

/-! ### Where an instruction leads -/

theorem pc_skipIf (condition : Bool) (m : Machine σ) :
    (m.skipIf condition).pc = m.pc ∨ (m.skipIf condition).pc = m.pc + 2 := by
  unfold skipIf
  split_ifs
  · exact .inr rfl
  · exact .inl rfl

theorem pc_skipOnKey (x : Fin 16) (pressed : Bool) (m : Machine σ) :
    (m.skipOnKey x pressed).2.pc = m.pc ∨ (m.skipOnKey x pressed).2.pc = m.pc + 2 := by
  unfold skipOnKey
  split
  · exact pc_skipIf _ m
  · exact .inl rfl

theorem pc_awaitKey (x : Fin 16) (m : Machine σ) :
    (m.awaitKey x).pc = m.pc ∨ (m.awaitKey x).pc = m.pc - 2 := by
  unfold awaitKey
  split
  · exact .inl rfl
  · exact .inr rfl

theorem pc_call (target : Int) (m : Machine σ) :
    (m.call target).2.pc = m.pc ∨ (m.call target).2.pc = target := by
  unfold call
  split_ifs
  · exact .inr rfl
  · exact .inl rfl

theorem pc_ret (m : Machine σ) :
    m.ret.2.pc = m.pc ∨ ∃ k : Fin 16, k.val < m.sp.val ∧ m.ret.2.pc = m.stack.get k := by
  unfold ret
  split_ifs with h
  · exact .inl rfl
  · exact .inr ⟨⟨m.sp.val - 1, by omega⟩, Nat.sub_lt (by omega) (by omega), rfl⟩

variable [RandomSource σ]

/-- An instruction leaves the program counter where it is past the word, moves
it by one word, or sets it to its operand or to a live slot. -/
theorem pc_execute (i : Instruction) (m : Machine σ) :
    (execute i m).2.pc = m.pc ∨ (execute i m).2.pc = m.pc + 2 ∨ (execute i m).2.pc = m.pc - 2 ∨
    (∃ offset : Nat, offset ≤ 255 ∧ (execute i m).2.pc = offset + i.nnn.val) ∨
    ∃ k : Fin 16, k.val < m.sp.val ∧ (execute i m).2.pc = m.stack.get k := by
  by_cases hw : i.Writes m .pc
  · cases e : i.opcode
    all_goals simp only [Instruction.Writes, e, reduceCtorEq, false_or, or_self, and_false,
      exists_const, or_false] at hw
    all_goals simp only [execute, e]
    case ret =>
      rcases pc_ret m with h | h
      · exact .inl h
      · exact .inr (.inr (.inr (.inr h)))
    case jp => exact .inr (.inr (.inr (.inl ⟨0, by omega, by omega⟩)))
    case call =>
      rcases pc_call i.nnn.val m with h | h
      · exact .inl h
      · exact .inr (.inr (.inr (.inl ⟨0, by omega, by omega⟩)))
    case jpV0 =>
      have := (m.reg Dimensions.jumpRegister).toNat_lt
      exact .inr (.inr (.inr (.inl ⟨_, by omega, rfl⟩)))
    case skp | sknp => exact (pc_skipOnKey i.x _ m).imp_right .inl
    case ldKey => exact (pc_awaitKey i.x m).imp_right fun h => .inr (.inl h)
    case seImm | sneImm | seReg | sneReg => exact (pc_skipIf _ m).imp_right .inl
  · exact .inl (sameAt_execute hw)

/-- From inside memory an instruction leads no further than `0x10FE`. -/
theorem Bounded.pc_execute (h : m.Bounded) (hn : m.Next i) :
    0 ≤ (execute i m.past).2.pc ∧ (execute i m.past).2.pc ≤ 0x10FE := by
  have range := hn.1.1
  have hpast : m.past.pc = m.pc + 2 := rfl
  have hnnn := i.nnn.isLt
  rcases Machine.pc_execute i m.past with e | e | e | ⟨offset, ho, e⟩ | ⟨k, hk, e⟩
  · omega
  · omega
  · omega
  · omega
  · have live : 2 ≤ m.past.stack.get k ∧ m.past.stack.get k ≤ 4096 := h.live k hk
    omega

/-! ### What an instruction computes -/

theorem Bounded.index_execute (h : m.Bounded) (i : Instruction) :
    0 ≤ (execute i m).2.index ∧ (execute i m).2.index ≤ 0xFFFF := by
  by_cases hw : i.Writes m .index
  · have hx := (m.reg i.x).toNat_lt
    have hnnn := i.nnn.isLt
    rcases Instruction.writes_index_iff.1 hw with e | e | e
    · simp only [execute, e]
      omega
    · simp only [execute, e]
      omega
    · simp only [execute, e, Dimensions.fontBase, Dimensions.glyphHeight]
      omega
  · have same : (execute i m).2.index = m.index := sameAt_execute hw
    rw [same]
    exact h.index

theorem WellFormed.delay_execute (h : m.WellFormed) (i : Instruction) :
    0 ≤ (execute i m).2.timers.delay ∧ (execute i m).2.timers.delay ≤ 255 := by
  by_cases hw : i.Writes m .delay
  · have hx := (m.reg i.x).toNat_lt
    simp only [execute, Instruction.writes_delay_iff.1 hw]
    omega
  · have same : (execute i m).2.timers.delay = m.timers.delay := sameAt_execute hw
    rw [same]
    exact h.delay

theorem WellFormed.sound_execute (h : m.WellFormed) (i : Instruction) :
    0 ≤ (execute i m).2.timers.sound ∧ (execute i m).2.timers.sound ≤ 255 := by
  by_cases hw : i.Writes m .sound
  · have hx := (m.reg i.x).toNat_lt
    simp only [execute, Instruction.writes_sound_iff.1 hw]
    omega
  · have same : (execute i m).2.timers.sound = m.timers.sound := sameAt_execute hw
    rw [same]
    exact h.sound

theorem WellFormed.execute (h : m.WellFormed) (i : Instruction) : (execute i m).2.WellFormed where
  delay := h.delay_execute i
  sound := h.sound_execute i
  modulus := by
    have same : (Machine.execute i m).2.config = m.config :=
      sameAt_execute Instruction.not_writes_config
    rw [same]
    exact h.modulus

/-! ### What an instruction leaves on the stack -/

theorem Bounded.slots_execute (h : m.Bounded) (hn : m.Next i) (k : Fin 16) :
    (Machine.execute i m.past).2.stack.get k = 0 ∨
      IsReturnAddress ((Machine.execute i m.past).2.stack.get k) := by
  by_cases hc : i.opcode = .call
  · rw [execute_of_call hc]
    by_cases room : m.sp.val < 16
    · rw [get_stack_call (m := m.past) ⟨m.sp.val, room⟩ rfl]
      split_ifs
      · exact .inr (isReturnAddress_past hn)
      · exact h.slots k
    · rw [call_of_full (m := m.past) (show m.sp.val = 16 by omega)]
      exact h.slots k
  · rw [stack_execute hc]
    exact h.slots k

theorem Bounded.live_execute (h : m.Bounded) (hn : m.Next i) (k : Fin 16)
    (hk : k.val < (Machine.execute i m.past).2.sp.val) :
    IsReturnAddress ((Machine.execute i m.past).2.stack.get k) := by
  by_cases hc : i.opcode = .call
  · rw [execute_of_call hc] at hk ⊢
    by_cases room : m.sp.val < 16
    · rw [call_of_room (m := m.past) ⟨m.sp.val, room⟩ rfl] at hk
      rw [get_stack_call (m := m.past) ⟨m.sp.val, room⟩ rfl]
      split_ifs with e
      · exact isReturnAddress_past hn
      · -- below the new entry nothing has changed
        have ne : m.sp.val ≠ k.val := fun e' => e (Fin.ext e')
        have hk : k.val < m.sp.val + 1 := hk
        exact h.live k (by omega)
    · rw [call_of_full (m := m.past) (show m.sp.val = 16 by omega)] at hk ⊢
      exact h.live k hk
  · rw [stack_execute hc]
    by_cases hr : i.opcode = .ret
    · rw [execute_of_ret hr] at hk
      by_cases empty : m.sp.val = 0
      · rw [ret_of_empty (m := m.past) empty] at hk
        exact h.live k hk
      · obtain ⟨top, ht⟩ := exists_top empty
        rw [ret_of_live (m := m.past) ht] at hk
        have hk : k.val < top.val := hk
        exact h.live k (by omega)
    · rw [sp_execute hc hr] at hk
      exact h.live k hk

/-! ### Every history -/

theorem WellFormed.step (h : m.WellFormed) : m.step.2.WellFormed := by
  rcases step_cases h with ⟨-, e⟩ | ⟨w, -, -, e⟩ | ⟨i, f, -, -, e⟩ | ⟨i, -, -, e⟩
  · rwa [e]
  · rw [e]
    exact h.past
  · rw [e]
    exact h.past
  · rw [e]
    have after := h.past.execute i
    exact { after with }

theorem WellFormed.perform (h : m.WellFormed) (e : Event) : (e.perform m).2.WellFormed := by
  cases e with
  | step => exact h.step
  | load program =>
    show (m.load program).2.WellFormed
    unfold Machine.load
    split_ifs
    · exact h
    · exact { h with }
  | setKey | releaseKeys => exact { h with }
  | tick =>
    have := h.delay
    have := h.sound
    refine { h with delay := ?_, sound := ?_ }
    all_goals
      simp only [Event.perform, tickTimers, Timers.tick, Timers.countDown]
      omega
  | setDelay v =>
    refine { h with delay := ?_ }
    simp only [Event.perform, setDelay]
    omega
  | setSound v =>
    refine { h with sound := ?_ }
    simp only [Event.perform, setSound]
    omega
  | reset =>
    refine { h with delay := ?_, sound := ?_ }
    all_goals simp [Event.perform, reset_eq_powerOn, powerOn]

theorem Bounded.execute (h : m.Bounded) (hn : m.Next i) : (execute i m.past).2.Bounded where
  toWellFormed := h.toWellFormed.past.execute i
  live := h.live_execute hn
  slots := h.slots_execute hn
  pc := h.pc_execute hn
  index := (h.past hn.1).index_execute i

theorem Bounded.step (h : m.Bounded) : m.step.2.Bounded := by
  rcases step_cases h.toWellFormed with
    ⟨-, e⟩ | ⟨w, hw, -, e⟩ | ⟨i, f, hn, -, e⟩ | ⟨i, hn, -, e⟩
  · rwa [e]
  · rw [e]
    exact h.past hw
  · rw [e]
    exact h.past hn.1
  · rw [e]
    exact (h.execute hn).counted

theorem Bounded.perform (h : m.Bounded) (e : Event) : (e.perform m).2.Bounded := by
  have wf := h.toWellFormed.perform e
  cases e with
  | step => exact h.step
  | load program => exact h.load program
  | setKey | releaseKeys | tick | setDelay | setSound => exact { h with toWellFormed := wf }
  | reset =>
    show m.reset.Bounded
    rw [reset_eq_powerOn]
    exact bounded_powerOn h.modulus m.random

theorem Bounded.afterCalls (h : m.Bounded) (calls : List Call) : (m.afterCalls calls).Bounded := by
  obtain ⟨es, e⟩ := reaches_afterCalls calls m
  rw [← e]
  exact after_invariant (fun e _ h => h.perform e) es h

/-- **The bounds hold in every history.** Nor do the sizes hang on the types
alone: no write into memory sticks out of it, and registers are loaded from
bytes that are all there, so every span is replaced by one of its length. -/
theorem bounded_in_every_history (config : Config)
    (whole : config.onesModulus = .ten ∨ config.onesModulus = .hundred) (random : σ)
    (calls : List Call) :
    let m := (powerOn config random).afterCalls calls
    m.Bounded ∧ m.Sized ∧
      (∀ e : Event,
        (m.written e).1 + (m.written e).2.length ≤ m.memory.toList.length ∧
        (e.perform m).2.memory.toList =
          Memory.splice (m.written e).1 (m.written e).2 m.memory.toList) ∧
      ∀ (i : Instruction) (m' : Machine σ), m.step = .done i m' → i.opcode = .load →
        let bytes := Memory.slice m.index.toNat (i.x.val + 1) m.memory
        bytes.length = i.x.val + 1 ∧
          m'.registers.toList = Memory.splice 0 bytes m.registers.toList := by
  intro m
  have h : m.Bounded := (bounded_powerOn whole random).afterCalls calls
  refine ⟨h, sized m, fun e => ⟨?_, toList_memory_perform h.toWellFormed e⟩, ?_⟩
  · rw [(sized m).memory]
    exact written_inside h.toWellFormed e
  · intro i m' hs hl
    obtain ⟨-, hr, rfl⟩ := of_step_done hs
    exact toList_registers_load (m := m.past) hl hr

/-- A call that calls itself until the stack is full, then a frame that faults
again. -/
theorem bounded_after_stack_overflow :
    (Config.standard.onesModulus = .ten ∨ Config.standard.onesModulus = .hundred) ∧
      ((powerOn Config.standard (Supply.constant 0xAB)).afterCalls
        [.event (.load [0x22, 0x00]), .run 17, .frame Config.standard {}]).Bounded :=
  ⟨.inr rfl, (bounded_in_every_history Config.standard (.inr rfl) (Supply.constant 0xAB) _).1⟩

end Machine

end ChipEight
