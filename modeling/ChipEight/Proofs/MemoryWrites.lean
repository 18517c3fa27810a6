/-
# Writes into memory

Memory seen as a list of bytes, in which a span is replaced by as many bytes as
are written; a span that stuck out at the top would make the list longer. No
event does that: each replaces one span (`Machine.written`), and the span lies
in memory, because a load checks the length of its program and an instruction
checks its span first.

Key definitions: `Memory.splice`, `Instruction.written`, `Machine.written`.
Key theorems: `Memory.toList_overlay`, `Machine.written_inside`,
`Machine.toList_memory_perform`.
-/
import ChipEight.Proofs.History
import ChipEight.Proofs.Stepping
import ChipEight.Proofs.WriteSet

namespace ChipEight

namespace Memory

/-- A list with the elements from `start` on replaced by others. Those that
find no place make the list longer. -/
def splice (start : Nat) (bytes l : List UInt8) : List UInt8 :=
  l.take start ++ bytes ++ l.drop (start + bytes.length)

theorem length_splice {start : Nat} {bytes l : List UInt8} (h : start + bytes.length ≤ l.length) :
    (splice start bytes l).length = l.length := by
  simp only [splice, List.length_append, List.length_take, List.length_drop]
  omega

theorem splice_zero_nil (l : List UInt8) : splice 0 [] l = l := by
  simp [splice]

/-- Of bytes that all fit, none is dropped. -/
theorem toList_overlay {start : Nat} {bytes : List UInt8} (h : start + bytes.length ≤ 4096)
    (m : Memory) : (overlay start bytes m).toList = splice start bytes m.toList := by
  have hl : m.toList.length = 4096 := Vector.length_toList
  apply List.ext_getElem
  · rw [length_splice (by omega), hl, Vector.length_toList]
  · intro a ha _
    have ha : a < 4096 := by simpa using ha
    rw [Vector.getElem_toList, getElem_overlay]
    simp only [splice, List.append_assoc, List.getElem_append, List.length_take, hl,
      List.getElem_take, List.getElem_drop, Vector.getElem_toList]
    split_ifs
    · omega
    · rw [List.getElem?_eq_getElem (by omega), Option.getD_some]
      congr 1
      omega
    · rw [List.getElem?_eq_none (by omega), Option.getD_none]
      congr 1
      omega
    · rfl
    · omega
    · omega

theorem length_slice {start length : Nat} (h : start + length ≤ 4096) (m : Memory) :
    (slice start length m).length = length := by
  simp only [slice, List.length_take, List.length_drop, Vector.length_toList]
  omega

theorem getElem_slice {start length : Nat} (h : start + length ≤ 4096) (m : Memory) {k : Nat}
    (hk : k < (slice start length m).length) :
    (slice start length m)[k] = byteAt (start + k) m := by
  rw [length_slice h] at hk
  simp [slice, byteAt, Vector.getElem?_eq_getElem (show start + k < 4096 by omega)]

end Memory

/-- Where an instruction writes into memory, and the bytes: none, its decimal
digits, or registers. -/
def Instruction.written {σ : Type} (i : Instruction) (m : Machine σ) : Nat × List UInt8 :=
  match i.opcode with
  | .bcd =>
    let v := m.reg i.x
    (m.index.toNat, [v / 100, v / 10 % 10, UInt8.ofNat (v.toNat % m.config.onesModulus.value)])
  | .store => (m.index.toNat, m.registers.toList.take (i.x.val + 1))
  | _ => (0, [])

namespace Machine

variable {σ : Type} {m : Machine σ} {i : Instruction}

/-- The data of an instruction that is not refused lie in memory. -/
theorem inside_of_not_refused {length : Nat} (hs : i.span? = some length) (hl : 0 < length)
    (h : refusal? i m = none) : 0 ≤ m.index ∧ m.index + length ≤ 4096 := by
  by_contra outside
  rw [refusal?_of_outside hs hl outside] at h
  cases h

/-! ### Instructions -/

theorem written_inside_of_not_refused (h : refusal? i m = none) :
    (i.written m).1 + (i.written m).2.length ≤ 4096 := by
  cases e : i.opcode
  case bcd =>
    have hs := inside_of_not_refused (by rw [Instruction.span?, e]) (by decide) h
    simp only [Instruction.written, e, List.length_cons, List.length_nil]
    omega
  case store =>
    have hs := inside_of_not_refused (by rw [Instruction.span?, e]) (by omega) h
    simp only [Instruction.written, e, List.length_take, Vector.length_toList]
    omega
  all_goals simp [Instruction.written, e]

variable [RandomSource σ]

theorem memory_execute (hb : i.opcode ≠ .bcd) (hs : i.opcode ≠ .store) :
    (execute i m).2.memory = m.memory := by
  ext a ha
  refine congrArg _ (sameAt_execute (c := .memory ⟨a, ha⟩) fun hw => ?_)
  cases e : i.opcode <;> simp_all [Instruction.Writes]

/-- An instruction puts the bytes that it writes over as many others. -/
theorem toList_memory_execute (wf : m.WellFormed) (h : refusal? i m = none) :
    (execute i m).2.memory.toList =
      Memory.splice (i.written m).1 (i.written m).2 m.memory.toList := by
  have inside := written_inside_of_not_refused h
  cases e : i.opcode
  case bcd =>
    rw [← Memory.toList_overlay inside]
    simp only [refusal?, e, Instruction.span?, Option.bind_some, Option.map_eq_none_iff] at h
    simp only [execute, e, storeDigits, withSpan_of_inside h, wf.whole?_eq, Instruction.written]
    rfl
  case store =>
    rw [← Memory.toList_overlay inside]
    simp only [refusal?, e, Instruction.span?, Option.bind_some, Option.map_eq_none_iff] at h
    simp only [execute, e, storeRegisters, withSpan_of_inside h, Instruction.written]
    rfl
  all_goals
    rw [memory_execute (by simp [e]) (by simp [e])]
    simp only [Instruction.written, e, Memory.splice_zero_nil]

/-- Registers are loaded from as many bytes, none of them beyond memory. -/
theorem toList_registers_load (e : i.opcode = .load) (h : refusal? i m = none) :
    let bytes := Memory.slice m.index.toNat (i.x.val + 1) m.memory
    bytes.length = i.x.val + 1 ∧
      (execute i m).2.registers.toList = Memory.splice 0 bytes m.registers.toList := by
  intro bytes
  have inside := inside_of_not_refused (by rw [Instruction.span?, e]) (by omega) h
  have fits : m.index.toNat + (i.x.val + 1) ≤ 4096 := by omega
  have hl : bytes.length = i.x.val + 1 := Memory.length_slice fits m.memory
  refine ⟨hl, ?_⟩
  simp only [refusal?, e, Instruction.span?, Option.bind_some, Option.map_eq_none_iff] at h
  simp only [execute, e, loadRegisters, withSpan_of_inside h]
  have whole : 0 + bytes.length ≤ m.registers.toList.length := by
    rw [hl, Vector.length_toList]
    omega
  apply List.ext_getElem
  · rw [Memory.length_splice whole, Vector.length_toList, Vector.length_toList]
  · intro r hr _
    have hr : r < 16 := by simpa using hr
    simp only [Memory.splice, List.take_zero, List.nil_append, List.getElem_append, hl,
      List.getElem_drop, Vector.getElem_toList, Vector.getElem_ofFn, Fin.le_def]
    split_ifs
    · exact (Memory.getElem_slice fits m.memory (by rw [Memory.length_slice fits]; omega)).symm
    · omega
    · omega
    · simp only [reg, Fin.getElem_fin]
      congr 1
      omega

/-! ### Events -/

/-- Where an event writes into memory, and the bytes. -/
def written : Event → Machine σ → Nat × List UInt8
  | .step, m =>
    match m.step with
    | (.ok i, _) => i.written m
    | (.error _, _) => (0, [])
  | .load program, _ => if program.length ≤ 3584 then (512, program) else (0, [])
  | .reset, _ => (0, Memory.initial.toList)
  | _, _ => (0, [])

omit [RandomSource σ] in
theorem load_of_too_long {program : List UInt8} (h : 3584 < program.length) :
    m.load program = .fail (.programTooLarge program.length) m := if_pos h

theorem written_step_of_fail {f : Fault} {m' : Machine σ} (h : m.step = .fail f m') :
    m.written .step = (0, []) := by
  simp only [written, h]

theorem written_step_of_done {m' : Machine σ} (h : m.step = .done i m') :
    m.written .step = i.written m := by
  simp only [written, h]

/-- **No write sticks out of memory.** -/
theorem written_inside (wf : m.WellFormed) (e : Event) :
    (m.written e).1 + (m.written e).2.length ≤ 4096 := by
  cases e with
  | step =>
    rcases step_cases wf with ⟨-, h⟩ | ⟨_, -, -, h⟩ | ⟨_, _, -, -, h⟩ | ⟨i, -, hr, h⟩
    · simp [written_step_of_fail h]
    · simp [written_step_of_fail h]
    · simp [written_step_of_fail h]
    · rw [written_step_of_done h]
      exact written_inside_of_not_refused hr
  | load program =>
    simp only [written]
    split_ifs
    · simp only
      omega
    · simp
  | reset => simp [written]
  | _ => simp [written]

/-- **An event puts the bytes that it writes over as many others.** -/
theorem toList_memory_perform (wf : m.WellFormed) (e : Event) :
    (e.perform m).2.memory.toList =
      Memory.splice (m.written e).1 (m.written e).2 m.memory.toList := by
  cases e with
  | step =>
    show m.step.2.memory.toList = _
    rcases step_cases wf with ⟨-, h⟩ | ⟨_, -, -, h⟩ | ⟨_, _, -, -, h⟩ | ⟨i, -, hr, h⟩
    · rw [written_step_of_fail h, h, Memory.splice_zero_nil]
    · rw [written_step_of_fail h, h, Memory.splice_zero_nil]; rfl
    · rw [written_step_of_fail h, h, Memory.splice_zero_nil]; rfl
    · rw [written_step_of_done h, h]
      exact toList_memory_execute wf.past hr
  | load program =>
    have inside := written_inside wf (.load program)
    simp only [written] at inside ⊢
    show (m.load program).2.memory.toList = _
    split_ifs at inside ⊢ with hp
    · rw [(load_eq_done_iff program m _).2 ⟨hp, rfl⟩]
      exact Memory.toList_overlay inside _
    · rw [Memory.splice_zero_nil, load_of_too_long (by omega)]
  | reset =>
    show Memory.initial.toList = _
    simp [written, Memory.splice]
  | _ => exact (Memory.splice_zero_nil _).symm

end Machine

end ChipEight
