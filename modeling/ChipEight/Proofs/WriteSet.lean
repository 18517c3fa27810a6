/-
# The write set of an instruction

The state of a machine as cells: each byte of memory, each register, each slot
of the stack, and the rest by name. An instruction changes no cell outside its
write set, whether it is executed or faults. Configuration, keypad and
instruction count are in no write set.

Key definitions: `Cell`, `Machine.SameAt`, `Instruction.Writes`.
Key theorems: `Machine.eq_of_sameAt`, `Machine.sameAt_execute`.
-/
import ChipEight.Machine.Step
import Mathlib.Tactic.Common

namespace ChipEight

/-- The parts of a machine's state. -/
inductive Cell where
  | memory (a : Fin 4096)
  | register (r : Fin 16)
  | slot (k : Fin 16)
  | sp
  | pc
  | index
  | display
  | keypad
  | delay
  | sound
  | random
  | count
  | config
  deriving DecidableEq

namespace Machine

variable {σ : Type}

/-- The two machines have the same in a cell. -/
def SameAt (m m' : Machine σ) : Cell → Prop
  | .memory a => m'.memory[a] = m.memory[a]
  | .register r => m'.reg r = m.reg r
  | .slot k => m'.stack.get k = m.stack.get k
  | .sp => m'.sp = m.sp
  | .pc => m'.pc = m.pc
  | .index => m'.index = m.index
  | .display => m'.display = m.display
  | .keypad => m'.keypad = m.keypad
  | .delay => m'.timers.delay = m.timers.delay
  | .sound => m'.timers.sound = m.timers.sound
  | .random => m'.random = m.random
  | .count => m'.instructionCount = m.instructionCount
  | .config => m'.config = m.config

theorem SameAt.refl (m : Machine σ) (c : Cell) : m.SameAt m c := by
  cases c <;> rfl

theorem SameAt.trans {m m' m'' : Machine σ} {c : Cell} (h : m.SameAt m' c) (h' : m'.SameAt m'' c) :
    m.SameAt m'' c := by
  cases c <;> exact Eq.trans h' h

/-- A machine is told by its cells. -/
theorem eq_of_sameAt {m n : Machine σ} (same : ∀ c, m.SameAt n c) : n = m := by
  have memory : n.memory = m.memory := Vector.ext fun a ha => same (.memory ⟨a, ha⟩)
  have registers : n.registers = m.registers := Vector.ext fun r hr => same (.register ⟨r, hr⟩)
  have stack : n.stack = m.stack := Vector.ext fun k hk => same (.slot ⟨k, hk⟩)
  have timers : n.timers = m.timers := by
    have delay : n.timers.delay = m.timers.delay := same .delay
    have sound : n.timers.sound = m.timers.sound := same .sound
    rcases hn : n.timers
    rcases hm : m.timers
    simp_all
  have rest := And.intro (same .sp) <| And.intro (same .pc) <| And.intro (same .index) <|
    And.intro (same .display) <| And.intro (same .keypad) <| And.intro (same .random) <|
    And.intro (same .count) (same .config)
  simp only [SameAt] at rest
  cases m
  cases n
  simp_all

end Machine

/-- The cells that an instruction may change. -/
def Instruction.Writes {σ : Type} (i : Instruction) (m : Machine σ) (c : Cell) : Prop :=
  match i.opcode with
  | .nop => False
  | .cls => c = .display
  | .ret => c = .sp ∨ c = .pc
  | .call => c = .sp ∨ c = .pc ∨ ∃ k : Fin 16, k.val = m.sp.val ∧ c = .slot k
  | .jp | .jpV0 | .seImm | .sneImm | .seReg | .sneReg | .skp | .sknp => c = .pc
  | .ldImm | .addImm | .ldReg | .or | .and | .xor | .ldVxDt => c = .register i.x
  | .addReg | .subReg | .subn | .shr | .shl =>
    c = .register i.x ∨ c = .register Dimensions.flagRegister
  | .rnd => c = .register i.x ∨ c = .random
  | .ldKey => c = .register i.x ∨ c = .pc
  | .drw => c = .display ∨ c = .register Dimensions.flagRegister
  | .ldDtVx => c = .delay
  | .ldStVx => c = .sound
  | .ldI | .addI | .ldF => c = .index
  | .bcd => ∃ a : Fin 4096, (m.index ≤ a.val ∧ (a.val : Int) < m.index + 3) ∧ c = .memory a
  | .store => ∃ a : Fin 4096, (m.index ≤ a.val ∧ (a.val : Int) ≤ m.index + i.x) ∧ c = .memory a
  | .load => ∃ r ≤ i.x, c = .register r

/-! ### Who writes a cell -/

namespace Instruction

variable {σ : Type} {i : Instruction} {m : Machine σ}

theorem writes_sp_iff : i.Writes m .sp ↔ i.opcode = .call ∨ i.opcode = .ret := by
  cases e : i.opcode <;> simp [Writes, e]

theorem writes_slot_iff {k : Fin 16} :
    i.Writes m (.slot k) ↔ i.opcode = .call ∧ k.val = m.sp.val := by
  cases e : i.opcode <;> simp [Writes, e]

theorem writes_index_iff :
    i.Writes m .index ↔ i.opcode = .ldI ∨ i.opcode = .addI ∨ i.opcode = .ldF := by
  cases e : i.opcode <;> simp [Writes, e]

theorem writes_delay_iff : i.Writes m .delay ↔ i.opcode = .ldDtVx := by
  cases e : i.opcode <;> simp [Writes, e]

theorem writes_sound_iff : i.Writes m .sound ↔ i.opcode = .ldStVx := by
  cases e : i.opcode <;> simp [Writes, e]

theorem not_writes_config : ¬i.Writes m .config := by
  cases e : i.opcode <;> simp [Writes, e]

end Instruction

namespace Machine

variable {σ : Type} {m : Machine σ} {c : Cell}

/-! ### Parts of instructions -/

theorem sameAt_withReg {r : Fin 16} (h : c ≠ .register r) (v : UInt8) :
    m.SameAt (m.withReg r v) c := by
  cases c
  case register s =>
    have ne : r.val ≠ s.val := fun e => h (congrArg Cell.register (Fin.ext e.symm))
    exact Vector.getElem_set_ne r.isLt s.isLt ne
  all_goals rfl

theorem sameAt_withReg_withFlag {r : Fin 16}
    (h : ¬(c = .register r ∨ c = .register Dimensions.flagRegister)) (v : UInt8) (flag : Bool) :
    m.SameAt ((m.withReg r v).withFlag flag) c := by
  obtain ⟨hr, hf⟩ := not_or.1 h
  exact (sameAt_withReg hr v).trans (sameAt_withReg hf _)

theorem sameAt_skipIf (h : c ≠ .pc) (condition : Bool) : m.SameAt (m.skipIf condition) c := by
  unfold skipIf
  split_ifs
  · cases c <;> first | rfl | contradiction
  · exact SameAt.refl m c

theorem sameAt_awaitKey {x : Fin 16} (h : ¬(c = .register x ∨ c = .pc)) :
    m.SameAt (m.awaitKey x) c := by
  obtain ⟨hx, hp⟩ := not_or.1 h
  unfold awaitKey
  split
  · exact sameAt_withReg hx _
  · cases c <;> first | rfl | contradiction

theorem sameAt_write {bytes : List UInt8}
    (h : ∀ a : Fin 4096, c = .memory a →
      a.val < m.index.toNat ∨ m.index.toNat + bytes.length ≤ a.val) :
    m.SameAt (m.write bytes) c := by
  cases c
  case memory a =>
    show (Memory.overlay _ _ _)[a.val] = m.memory[a.val]
    rw [Memory.getElem_overlay]
    split_ifs with hs
    · rw [List.getElem?_eq_none (by rcases h a rfl with h | h <;> omega), Option.getD_none]
    · rfl
  all_goals rfl

theorem sameAt_withSpan {length : Nat} {next : Attempt (Machine σ) Unit}
    (h : length = 0 ∨ (0 ≤ m.index ∧ m.index + length ≤ 4096) → m.SameAt next.2 c) :
    m.SameAt (m.withSpan length next).2 c := by
  cases e : Span.outside? m.index length with
  | some a =>
    rw [withSpan, e]
    exact SameAt.refl m c
  | none =>
    rw [withSpan, e]
    exact h (Span.outside?_eq_none_iff.1 e)

theorem sameAt_call (target : Int)
    (h : ¬(c = .sp ∨ c = .pc ∨ ∃ k : Fin 16, k.val = m.sp.val ∧ c = .slot k)) :
    m.SameAt (m.call target).2 c := by
  unfold call
  split_ifs with room
  · cases c
    case slot k =>
      have ne : m.sp.val ≠ k.val := fun e => h (.inr (.inr ⟨k, e.symm, rfl⟩))
      exact Vector.getElem_set_ne room k.isLt ne
    all_goals first | rfl | simp at h
  · exact SameAt.refl m c

theorem sameAt_ret (h : ¬(c = .sp ∨ c = .pc)) : m.SameAt m.ret.2 c := by
  unfold ret
  split_ifs
  · exact SameAt.refl m c
  · cases c <;> first | rfl | simp at h

theorem sameAt_skipOnKey (h : c ≠ .pc) (x : Fin 16) (pressed : Bool) :
    m.SameAt (m.skipOnKey x pressed).2 c := by
  unfold skipOnKey
  split
  · exact sameAt_skipIf h _
  · exact SameAt.refl m c

theorem sameAt_readDelay {x : Fin 16} (h : c ≠ .register x) : m.SameAt (m.readDelay x).2 c := by
  unfold readDelay
  split_ifs
  · exact sameAt_withReg h _
  · exact SameAt.refl m c

theorem sameAt_draw (h : ¬(c = .display ∨ c = .register Dimensions.flagRegister)) (x y : Fin 16)
    (height : Nat) : m.SameAt (m.draw x y height).2 c := by
  obtain ⟨hd, hf⟩ := not_or.1 h
  refine sameAt_withSpan fun _ => ?_
  refine SameAt.trans ?_ (sameAt_withReg hf _)
  cases c <;> first | rfl | contradiction

theorem sameAt_storeDigits (v : UInt8)
    (h : ¬∃ a : Fin 4096, (m.index ≤ a.val ∧ (a.val : Int) < m.index + 3) ∧ c = .memory a) :
    m.SameAt (m.storeDigits v).2 c := by
  have outside {bytes : List UInt8} (hl : bytes.length ≤ 3) (hs : 0 ≤ m.index) :
      m.SameAt (m.write bytes) c :=
    sameAt_write fun a ha => by
      by_contra hin
      exact h ⟨a, by omega, ha⟩
  refine sameAt_withSpan fun hs => ?_
  split
  · exact outside (by simp [leadingDigits]) (by omega)
  · exact outside (by simp [leadingDigits]) (by omega)

theorem sameAt_storeRegisters {x : Fin 16}
    (h : ¬∃ a : Fin 4096, (m.index ≤ a.val ∧ (a.val : Int) ≤ m.index + x) ∧ c = .memory a) :
    m.SameAt (m.storeRegisters x).2 c := by
  refine sameAt_withSpan fun hs => sameAt_write fun a ha => ?_
  have hl : (m.registers.toList.take (x.val + 1)).length ≤ x.val + 1 := List.length_take_le ..
  by_contra hin
  exact h ⟨a, by omega, ha⟩

theorem sameAt_loadRegisters {x : Fin 16} (h : ¬∃ r ≤ x, c = .register r) :
    m.SameAt (m.loadRegisters x).2 c := by
  refine sameAt_withSpan fun _ => ?_
  cases c
  case register r =>
    have hr : ¬r ≤ x := fun hr => h ⟨r, hr, rfl⟩
    simp [SameAt, reg, hr]
  all_goals rfl

/-! ### Instructions -/

variable [RandomSource σ]

theorem sameAt_randomize {x : Fin 16} (h : ¬(c = .register x ∨ c = .random)) (mask : UInt8) :
    m.SameAt (m.randomize x mask) c := by
  obtain ⟨hx, hr⟩ := not_or.1 h
  refine SameAt.trans ?_ (sameAt_withReg hx _)
  cases c <;> first | rfl | contradiction

/-- **An instruction changes nothing outside its write set**, whatever becomes of it. -/
theorem sameAt_execute {i : Instruction} (h : ¬i.Writes m c) : m.SameAt (execute i m).2 c := by
  cases e : i.opcode
  all_goals simp only [Instruction.Writes, e] at h
  all_goals simp only [execute, e]
  case nop => exact SameAt.refl m c
  case ret => exact sameAt_ret h
  case call => exact sameAt_call _ h
  case seImm | sneImm | seReg | sneReg => exact sameAt_skipIf h _
  case ldImm | addImm | ldReg | or | and | xor => exact sameAt_withReg h _
  case addReg | subReg | subn | shr | shl => exact sameAt_withReg_withFlag h _ _
  case rnd => exact sameAt_randomize h _
  case drw => exact sameAt_draw h ..
  case skp | sknp => exact sameAt_skipOnKey h ..
  case ldVxDt => exact sameAt_readDelay h
  case ldKey => exact sameAt_awaitKey h
  case bcd => exact sameAt_storeDigits _ h
  case store => exact sameAt_storeRegisters h
  case load => exact sameAt_loadRegisters h
  all_goals cases c <;> first | rfl | contradiction

/-! ### The stack -/

omit [RandomSource σ] in
theorem call_of_room (top : Fin 16) (h : m.sp.val = top.val) (target : Int) :
    m.call target = .done () { m with
      stack := m.stack.set top.val m.pc top.isLt
      sp := top.succ
      pc := target } := by
  simp only [call, h, top.isLt, ↓reduceDIte]
  rfl

omit [RandomSource σ] in
theorem get_stack_call (top : Fin 16) (h : m.sp.val = top.val) (target : Int) (k : Fin 16) :
    (m.call target).2.stack.get k = if top = k then m.pc else m.stack.get k := by
  rw [call_of_room top h]
  split_ifs with e
  · subst e
    exact Vector.getElem_set_self top.isLt
  · exact Vector.getElem_set_ne top.isLt k.isLt fun e' => e (Fin.ext e')

omit [RandomSource σ] in
theorem call_of_full (h : m.sp.val = 16) (target : Int) : m.call target = .fail .stackOverflow m :=
  dif_neg (by omega)

omit [RandomSource σ] in
theorem ret_of_empty (h : m.sp.val = 0) : m.ret = .fail .stackUnderflow m := dif_pos h

omit [RandomSource σ] in
theorem exists_top (live : m.sp.val ≠ 0) : ∃ top : Fin 16, m.sp.val = top.val + 1 := by
  have := m.sp.isLt
  exact ⟨⟨m.sp.val - 1, by omega⟩, show m.sp.val = m.sp.val - 1 + 1 by omega⟩

omit [RandomSource σ] in
theorem ret_of_live {top : Fin 16} (h : m.sp.val = top.val + 1) :
    m.ret = .done () { m with
      sp := top.castSucc
      pc := m.stack.get top } := by
  simp only [ret, h]
  rfl

theorem execute_of_call {i : Instruction} (h : i.opcode = .call) :
    execute i m = m.call i.nnn.val := by
  simp only [execute, h]

theorem execute_of_ret {i : Instruction} (h : i.opcode = .ret) : execute i m = m.ret := by
  simp only [execute, h]

theorem sp_execute {i : Instruction} (hc : i.opcode ≠ .call) (hr : i.opcode ≠ .ret) :
    (execute i m).2.sp = m.sp :=
  sameAt_execute (c := .sp) fun hw => (Instruction.writes_sp_iff.1 hw).elim hc hr

theorem stack_execute {i : Instruction} (hc : i.opcode ≠ .call) :
    (execute i m).2.stack = m.stack := by
  ext k hk
  exact sameAt_execute (c := .slot ⟨k, hk⟩) fun hw => hc (Instruction.writes_slot_iff.1 hw).1

end Machine

end ChipEight
