/-
# Where a step leads

The program counter after a step that is done is told by the instruction and by
the machine as it was before (`Instruction.successor?`): a jump goes to its
target, a return to the last address on the stack, a wait without a key to
itself, a skip that takes place past the next word, and everything else to it.

Of two instructions that skip on opposite conditions just one skips, whatever
the machine. Where a step leads is nothing that it can fault for: it may lead
out of memory, and then the next fetch faults.

Key definitions: `Instruction.Skips`, `Instruction.successor?`,
`Instruction.Opposite`.
Key theorems: `Machine.Next.decode_eq`, `Machine.pc_execute_of_not_refused`,
`Instruction.Opposite.skips_iff`, `Machine.step_goes_to_its_successor`.
-/
import ChipEight.Proofs.CallStack
import ChipEight.Proofs.Faults
import ChipEight.Proofs.WordPrograms

namespace ChipEight

open Machine

variable {σ : Type} {m m' : Machine σ} {i j : Instruction}

/-! ### Successors -/

namespace Instruction

/-- The condition of a skip holds. -/
def Skips (i : Instruction) (m : Machine σ) : Prop :=
  match i.opcode with
  | .seImm => m.reg i.x = i.nn
  | .sneImm => m.reg i.x ≠ i.nn
  | .seReg => m.reg i.x = m.reg i.y
  | .sneReg => m.reg i.x ≠ m.reg i.y
  | .skp => ∃ k : Key, k.val = (m.reg i.x).toNat ∧ m.keypad.isPressed k
  | .sknp => ∃ k : Key, k.val = (m.reg i.x).toNat ∧ ¬m.keypad.isPressed k
  | _ => False

instance (i : Instruction) (m : Machine σ) : Decidable (i.Skips m) := by
  unfold Skips
  split <;> infer_instance

/-- Where the instruction at the program counter leads. Only a return without an
address on the stack leads nowhere. -/
def successor? (i : Instruction) (m : Machine σ) : Option Int :=
  match i.opcode with
  | .jp | .call => some i.nnn.val
  | .jpV0 => some ((m.reg Dimensions.jumpRegister).toNat + i.nnn.val)
  | .ret => m.liveStack.getLast?
  | .ldKey => some (if ∃ k, m.keypad.isPressed k then m.pc + 2 else m.pc)
  | _ => some (if i.Skips m then m.pc + 4 else m.pc + 2)

/-- Instructions that skip on opposite conditions on the same operands. -/
inductive Opposite (i j : Instruction) : Prop
  | byte (equal : i.opcode = .seImm) (unequal : j.opcode = .sneImm) (x : j.x = i.x)
      (nn : j.nn = i.nn)
  | registers (equal : i.opcode = .seReg) (unequal : j.opcode = .sneReg) (x : j.x = i.x)
      (y : j.y = i.y)
  | key (pressed : i.opcode = .skp) (released : j.opcode = .sknp) (x : j.x = i.x)

end Instruction

namespace Machine

/-! ### Parts of instructions -/

/-- A skip past the next word, if its condition holds. -/
theorem pc_skipIf_past (m : Machine σ) {condition : Bool} {p : Prop} [Decidable p]
    (holds : condition ↔ p) : (m.past.skipIf condition).pc = if p then m.pc + 4 else m.pc + 2 := by
  by_cases h : p
  · have next : m.pc + 2 + 2 = m.pc + 4 := by omega
    rw [if_pos h, skipIf, if_pos (holds.2 h)]
    exact next
  · rw [if_neg h, skipIf, if_neg (mt holds.1 h)]
    rfl

/-- A wait goes on if there is a key, and comes back if there is none. -/
theorem pc_awaitKey_past (x : Fin 16) (m : Machine σ) :
    (m.past.awaitKey x).pc = if ∃ k, m.keypad.isPressed k then m.pc + 2 else m.pc := by
  cases first : m.past.keypad.firstPressed with
  | some k =>
    have pressed : ∃ k, m.keypad.isPressed k := ⟨k, List.find?_some first⟩
    rw [if_pos pressed, awaitKey, first]
    rfl
  | none =>
    have idle : ¬∃ k, m.keypad.isPressed k := by
      rintro ⟨k, pressed⟩
      exact List.find?_eq_none.1 first k (List.mem_finRange k) pressed
    have back : m.pc + 2 - 2 = m.pc := by omega
    rw [if_neg idle, awaitKey, first]
    exact back

/-- What is asked of the key whose number a register holds. -/
theorem exists_key_iff {x : Fin 16} (h : (m.reg x).toNat < 16) {p : Key → Prop} :
    (∃ k : Key, k.val = (m.reg x).toNat ∧ p k) ↔ p ⟨(m.reg x).toNat, h⟩ := by
  constructor
  · rintro ⟨k, number, holds⟩
    obtain rfl : k = ⟨(m.reg x).toNat, h⟩ := Fin.ext number
    exact holds
  · exact fun holds => ⟨_, rfl, holds⟩

/-- The word at the program counter is decoded to the instruction there. -/
theorem Next.decode_eq (here : m.Next i) :
    Instruction.decode ((256 * (Memory.byteAt m.pc.toNat m.memory).toNat
      + (Memory.byteAt (m.pc.toNat + 1) m.memory).toNat : Nat)) = .ok i := by
  have word := i.word.toNat_lt
  rw [← here.1.2, Instruction.decode_eq_ok_iff, Opcode.ofInt_toNat, Instruction.ofWord?_eq_some_iff]
  exact ⟨by omega, rfl, Opcode.find?_of_fits here.2⟩

/-! ### One instruction -/

/-- An instruction that is no detour leads to the next word. -/
theorem successor?_of_straight (straight : i.opcode ∉ Opcode.detours) :
    i.successor? m = some (m.pc + 2) := by
  cases e : i.opcode
  case ret | jp | call | jpV0 | seImm | sneImm | seReg | sneReg | skp | sknp | ldKey =>
    exact absurd (by simp [e, Opcode.detours]) straight
  all_goals simp [Instruction.successor?, Instruction.Skips, e]

/-- The key that a skip asks for is there, unless the skip is refused. -/
theorem key_of_not_refused (op : i.opcode = .skp ∨ i.opcode = .sknp)
    (free : refusal? i m = none) : (m.reg i.x).toNat < 16 := by
  by_contra none
  rw [refusal?_of_no_key op (by omega)] at free
  cases free

variable [RandomSource σ]

theorem pc_execute_skip (free : refusal? i m = none)
    (op : i.opcode ∈ [.seImm, .sneImm, .seReg, .sneReg, .skp, .sknp]) :
    (execute i m.past).2.pc = if i.Skips m then m.pc + 4 else m.pc + 2 := by
  cases e : i.opcode
  case seImm | sneImm | seReg | sneReg =>
    simp only [execute, e]
    refine pc_skipIf_past m ?_
    simp [Instruction.Skips, e, reg_past]
  case skp | sknp =>
    have there := key_of_not_refused (by simp [e]) free
    simp only [execute, e, skipOnKey_of_key (m := m.past) there]
    refine pc_skipIf_past m ?_
    simp only [Instruction.Skips, e, exists_key_iff there, beq_iff_eq, Bool.not_eq_true]
    exact Iff.rfl
  all_goals simp [e] at op

/-- **An instruction that is not refused leads to its successor.** -/
theorem pc_execute_of_not_refused (free : refusal? i m = none) :
    i.successor? m = some (execute i m.past).2.pc := by
  by_cases straight : i.opcode ∉ Opcode.detours
  · have kept : (execute i m.past).2.pc = m.pc + 2 :=
      sameAt_execute (c := .pc) fun written => straight (Instruction.writes_pc_iff.1 written)
    rw [successor?_of_straight straight, kept]
  cases e : i.opcode
  case ret =>
    have live : m.sp.val ≠ 0 := fun empty => by
      rw [refusal?_of_empty e empty] at free
      cases free
    obtain ⟨top, ht⟩ := exists_top live
    have last : m.liveStack = m.past.ret.2.liveStack ++ [m.past.ret.2.pc] :=
      liveStack_ret (m := m.past) ht
    rw [execute_of_ret e]
    simp only [Instruction.successor?, e, last, List.getLast?_concat]
  case call =>
    have room : m.sp.val < 16 := by
      by_contra full
      have := m.sp.isLt
      rw [refusal?_of_full e (by omega)] at free
      cases free
    rw [execute_of_call e, call_of_room (m := m.past) ⟨m.sp.val, room⟩ rfl]
    simp only [Instruction.successor?, e]
  case jp | jpV0 => simp only [Instruction.successor?, execute, e, reg_past]
  case ldKey => simp only [Instruction.successor?, execute, e, pc_awaitKey_past]
  case seImm | sneImm | seReg | sneReg | skp | sknp =>
    rw [pc_execute_skip free (by simp [e])]
    simp only [Instruction.successor?, e]
  all_goals exact absurd (by simp [e, Opcode.detours]) straight

omit [RandomSource σ] in
/-- Whether an instruction skips is told by the registers and the keys. -/
theorem skips_congr (registers : m'.registers = m.registers) (keypad : m'.keypad = m.keypad) :
    i.Skips m' ↔ i.Skips m := by
  unfold Instruction.Skips reg
  rw [registers, keypad]

end Machine

/-! ### Opposite skips -/

namespace Instruction.Opposite

/-- **Of two opposite instructions just one skips.** -/
theorem skips_iff (opposite : i.Opposite j)
    (key : i.opcode = .skp → (m.reg i.x).toNat ≤ 15) : j.Skips m ↔ ¬i.Skips m := by
  cases opposite with
  | byte equal unequal x nn => simp only [Skips, equal, unequal, x, nn, ne_eq]
  | registers equal unequal x y => simp only [Skips, equal, unequal, x, y, ne_eq]
  | key pressed released x =>
    have there : (m.reg i.x).toNat < 16 := Nat.lt_succ_of_le (key pressed)
    simp only [Skips, pressed, released, x, exists_key_iff there]

theorem isSkip (opposite : i.Opposite j) :
    i.opcode ∈ [.seImm, .sneImm, .seReg, .sneReg, .skp, .sknp] ∧
      j.opcode ∈ [.seImm, .sneImm, .seReg, .sneReg, .skp, .sknp] := by
  cases opposite with
  | byte equal unequal | registers equal unequal => simp [equal, unequal]
  | key pressed released => simp [pressed, released]

/-- Neither is refused, if there is the key that is asked for. -/
theorem not_refused (opposite : i.Opposite j)
    (key : i.opcode = .skp → (m.reg i.x).toNat ≤ 15) :
    refusal? i m = none ∧ refusal? j m = none := by
  cases opposite with
  | byte equal unequal | registers equal unequal => simp [refusal?, span?, equal, unequal]
  | key pressed released x =>
    have there : ¬15 < (m.reg i.x).toNat := Nat.not_lt_of_le (key pressed)
    simp [refusal?, pressed, released, x, there]

end Instruction.Opposite

namespace Machine

variable [RandomSource σ]

/-- **A step leads to the successor of its instruction**, which is the one that
the word at the program counter is decoded to. Of two opposite instructions that
are put at the program counter of one machine just one skips, if there is the
key that they ask for. And a step is not refused for where it leads: if that is
outside memory, the step is done, and the fault comes at the next fetch. -/
theorem step_goes_to_its_successor (wf : m.WellFormed) :
    (∀ i m', m.step = .done i m' →
      Instruction.decode ((256 * (Memory.byteAt m.pc.toNat m.memory).toNat
        + (Memory.byteAt (m.pc.toNat + 1) m.memory).toNat : Nat)) = .ok i ∧
      i.successor? m = some m'.pc) ∧
    (∀ (i j : Instruction) (other : Memory), i.Opposite j → m.Next i →
      { m with memory := other }.Next j → (i.opcode = .skp → (m.reg i.x).toNat ≤ 15) →
      ∃ m₁ m₂, m.step = .done i m₁ ∧ { m with memory := other }.step = .done j m₂ ∧
        (m₁.pc = m.pc + 4 ∧ m₂.pc = m.pc + 2 ∨ m₁.pc = m.pc + 2 ∧ m₂.pc = m.pc + 4)) ∧
    ∀ i a, m.Next i → refusal? i m = none → i.successor? m = some a → ¬(0 ≤ a ∧ a ≤ 4094) →
      ∃ m', m.step = .done i m' ∧ m'.pc = a ∧ m'.step = .fail (.fetchOutOfRange a) m' := by
  refine ⟨fun i m' done => ?_, fun i j other opposite here there key => ?_,
    fun i a here free leads outside => ?_⟩
  · obtain ⟨here, free, rfl⟩ := of_step_done done
    exact ⟨here.decode_eq, pc_execute_of_not_refused free⟩
  · have wf' : { m with memory := other }.WellFormed := ⟨wf.delay, wf.sound, wf.modulus⟩
    have free : refusal? i m = none := (opposite.not_refused key).1
    have free' : refusal? j { m with memory := other } = none :=
      (opposite.not_refused (m := { m with memory := other }) key).2
    have pc := pc_execute_skip free opposite.isSkip.1
    have pc' := pc_execute_skip free' opposite.isSkip.2
    have one : j.Skips { m with memory := other } ↔ ¬i.Skips m :=
      (skips_congr rfl rfl).trans (opposite.skips_iff key)
    refine ⟨_, _, step_of_not_refused wf here free, step_of_not_refused wf' there free', ?_⟩
    by_cases skips : i.Skips m
    · rw [if_pos skips] at pc
      rw [if_neg (mt one.1 (not_not_intro skips))] at pc'
      exact .inl ⟨pc, pc'⟩
    · rw [if_neg skips] at pc
      rw [if_pos (one.2 skips)] at pc'
      exact .inr ⟨pc, pc'⟩
  · have done := step_of_not_refused wf here free
    have pc : (execute i m.past).2.counted.pc = a :=
      Option.some.inj ((pc_execute_of_not_refused free).symm.trans leads)
    have fetch := step_of_fetch_outside (m := (execute i m.past).2.counted) (by rwa [pc])
    rw [pc] at fetch
    exact ⟨_, done, pc, fetch⟩

/-- A machine at the last word of memory, which is `5555`. -/
def atTheEnd : Machine Supply := filled 0x55 4094 0

/-- The same with `9550` in its place. -/
def endingUnequal : Machine Supply :=
  { atTheEnd with memory := ((Vector.replicate 4096 0).set 4094 0x95).set 4095 0x50 }

/-- `5555` compares a register with itself and skips, out of memory, where the
next fetch faults; `9550` does not skip. -/
theorem atTheEnd_skips_out :
    (atTheEnd.WellFormed ∧ atTheEnd.Next ⟨0x5555, .seReg⟩ ∧ endingUnequal.Next ⟨0x9550, .sneReg⟩ ∧
      Instruction.Opposite ⟨0x5555, .seReg⟩ ⟨0x9550, .sneReg⟩ ∧
      refusal? ⟨0x5555, .seReg⟩ atTheEnd = none) ∧
    ∃ m₁ m₂, atTheEnd.step = .done ⟨0x5555, .seReg⟩ m₁ ∧ m₁.pc = 4098 ∧
      m₁.step = .fail (.fetchOutOfRange 4098) m₁ ∧
      endingUnequal.step = .done ⟨0x9550, .sneReg⟩ m₂ ∧ m₂.pc = 4096 ∧
      Instruction.successor? ⟨0x5555, .seReg⟩ atTheEnd = some m₁.pc := by
  have wf : atTheEnd.WellFormed := wellFormed_filled ..
  have here : atTheEnd.Next ⟨0x5555, .seReg⟩ := by
    refine ⟨⟨by decide, ?_⟩, by decide⟩
    simp [atTheEnd, filled, Memory.byteAt]
  have there : endingUnequal.Next ⟨0x9550, .sneReg⟩ := by
    refine ⟨⟨by decide, ?_⟩, by decide⟩
    simp [endingUnequal, atTheEnd, filled, Memory.byteAt]
  have opposite : Instruction.Opposite ⟨0x5555, .seReg⟩ ⟨0x9550, .sneReg⟩ :=
    .registers rfl rfl rfl rfl
  have leads : Instruction.successor? ⟨0x5555, .seReg⟩ atTheEnd = some 4098 := by decide
  obtain ⟨follows, one, leaves⟩ := step_goes_to_its_successor wf
  obtain ⟨m₁, done, pc, fetch⟩ := leaves _ _ here rfl leads (by decide)
  obtain ⟨n₁, n₂, done₁, done₂, pcs⟩ := one _ _ _ opposite here there (by decide)
  obtain rfl : m₁ = n₁ := congrArg Prod.snd (done.symm.trans done₁)
  have start : atTheEnd.pc = 4094 := rfl
  exact ⟨⟨wf, here, there, opposite, rfl⟩, m₁, n₂, done, pc, fetch, done₂, by omega,
    (follows _ _ done).2⟩

end Machine

end ChipEight
