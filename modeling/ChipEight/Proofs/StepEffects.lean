/-
# What a step changes

A step that is done moves the program counter, adds one to the instruction
count and otherwise changes nothing outside the write set of its instruction
(`Instruction.Writes`); a step that faults counts nothing. No write set holds
the keypad or the configuration.

Key theorems: `Machine.sameAt_step`, `Machine.count_of_step_done`,
`Machine.count_of_step_fail`, `Machine.step_changes_its_write_set`.
-/
import ChipEight.Proofs.Faults
import ChipEight.Proofs.WriteSet

namespace ChipEight

namespace Instruction

variable {σ : Type} {i : Instruction} {m : Machine σ}

theorem not_writes_keypad : ¬i.Writes m .keypad := by
  cases e : i.opcode <;> simp [Writes, e]

theorem not_writes_count : ¬i.Writes m .count := by
  cases e : i.opcode <;> simp [Writes, e]

/-- What is written does not hang on the program counter. -/
theorem writes_past {c : Cell} : i.Writes m.past c ↔ i.Writes m c := Iff.rfl

end Instruction

namespace Machine

variable {σ : Type} {c : Cell}

theorem sameAt_past (pc : c ≠ .pc) (m : Machine σ) : m.SameAt m.past c := by
  cases c <;> first | rfl | contradiction

theorem sameAt_counted (count : c ≠ .count) (m : Machine σ) : m.SameAt m.counted c := by
  cases c <;> first | rfl | contradiction

variable [RandomSource σ] {m m' : Machine σ} {i : Instruction} {f : Fault}

/-- A step changes the program counter and the count, and otherwise what its
instruction writes. -/
theorem sameAt_step (pc : c ≠ .pc) (count : c ≠ .count)
    (unwritten : ∀ i, m.Next i → ¬i.Writes m.past c) : m.SameAt m.step.2 c := by
  have past := sameAt_past pc m
  rcases m.fetch_cases with outside | ⟨w, here, unfit⟩ | ⟨i, here⟩
  · rw [step_of_fetch_outside outside]
    exact .refl m c
  · rw [step_of_no_opcode here unfit]
    exact past
  · have executed := past.trans (sameAt_execute (unwritten i here))
    rw [step_of_next here]
    rcases e : execute i m.past with ⟨_ | _, m'⟩
    · rwa [e] at executed
    · rw [e] at executed
      exact executed.trans (sameAt_counted count m')

/-- What an instruction that is done does not write is as it was. -/
theorem sameAt_of_step_done (h : m.step = .done i m') (pc : c ≠ .pc) (count : c ≠ .count)
    (unwritten : ¬i.Writes m c) : m.SameAt m' c := by
  have here := (of_step_done h).1
  have after : m.SameAt m.step.2 c := sameAt_step pc count fun j there => by
    rwa [there.unique here, Instruction.writes_past]
  rwa [h] at after

theorem config_step (m : Machine σ) : m.step.2.config = m.config :=
  sameAt_step (c := .config) (by simp) (by simp) fun _ _ => Instruction.not_writes_config

theorem keypad_step (m : Machine σ) : m.step.2.keypad = m.keypad :=
  sameAt_step (c := .keypad) (by simp) (by simp) fun _ _ => Instruction.not_writes_keypad

/-! ### The instruction count -/

theorem count_execute (i : Instruction) (m : Machine σ) :
    (execute i m).2.instructionCount = m.instructionCount :=
  sameAt_execute (c := .count) Instruction.not_writes_count

theorem count_of_step_done (h : m.step = .done i m') :
    m'.instructionCount = m.instructionCount + 1 := by
  obtain ⟨-, -, rfl⟩ := of_step_done h
  exact congrArg (· + 1) (count_execute i m.past)

theorem count_of_step_fail (h : m.step = .fail f m') :
    m'.instructionCount = m.instructionCount := by
  rcases m.fetch_cases with outside | ⟨w, here, unfit⟩ | ⟨i, here⟩
  · rw [step_of_fetch_outside outside] at h
    obtain rfl : m = m' := congrArg Prod.snd h
    rfl
  · rw [step_of_no_opcode here unfit] at h
    obtain rfl : m.past = m' := congrArg Prod.snd h
    rfl
  · rw [step_of_next here] at h
    rcases Attempt.andThen_eq_fail_iff.1 h with fault | ⟨_, m'', _, done⟩
    · have kept := count_execute i m.past
      rwa [fault] at kept
    · cases done

/-! ### The write set -/

/-- **A step that is done changes its write set and nothing else**, but for the
program counter and the instruction count, which goes up by one. So no
instruction changes a key, `FX1E` leaves the flag alone, and `FX33`, `FX55`,
`FX65` and `DXYN` leave the index register alone. -/
theorem step_changes_its_write_set (h : m.step = .done i m') :
    m.Next i ∧ m'.instructionCount = m.instructionCount + 1 ∧
      (∀ c, c ≠ .pc → c ≠ .count → ¬i.Writes m c → m.SameAt m' c) ∧
      m'.keypad = m.keypad ∧
      (i.opcode = .addI → m'.reg Dimensions.flagRegister = m.reg Dimensions.flagRegister) ∧
      (i.opcode ∈ [.bcd, .store, .load, .drw] → m'.index = m.index) := by
  have here := (of_step_done h).1
  have same {c : Cell} (pc : c ≠ .pc) (count : c ≠ .count) (unwritten : ¬i.Writes m c) :
      m.SameAt m' c := sameAt_of_step_done h pc count unwritten
  refine ⟨here, count_of_step_done h, fun c => same, ?_, fun op => ?_, fun op => ?_⟩
  · exact same (c := .keypad) (by simp) (by simp) Instruction.not_writes_keypad
  · exact same (c := .register _) (by simp) (by simp) (by simp [Instruction.Writes, op])
  · refine same (c := .index) (by simp) (by simp) fun written => ?_
    rcases Instruction.writes_index_iff.1 written with e | e | e
    all_goals simp [e] at op

/-- `D3D3` draws three rows that lie in memory. -/
theorem filled_draws : ∃ m', (filled 0xD3 0x200 0x300).step = .done ⟨0xD3D3, .drw⟩ m' ∧
    m'.instructionCount = 1 ∧ m'.index = 0x300 ∧ m'.reg 3 = 0 := by
  have here : (filled 0xD3 0x200 0x300).Next ⟨0xD3D3, .drw⟩ := by
    refine ⟨⟨by decide, ?_⟩, by decide⟩
    simp [filled, Memory.byteAt]
  have free : refusal? ⟨0xD3D3, .drw⟩ (filled 0xD3 0x200 0x300) = none := by decide
  have done := step_of_not_refused (wellFormed_filled ..) here free
  obtain ⟨-, count, same, -, -, index⟩ := step_changes_its_write_set done
  refine ⟨_, done, count, index (by decide), ?_⟩
  exact same (.register 3) (by simp) (by simp) (by simp [Instruction.Writes, Dimensions.flagRegister])

end Machine

end ChipEight
