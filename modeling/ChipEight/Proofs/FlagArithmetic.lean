/-
# Arithmetic and the flag

Five instructions compute from one or two registers a result and a flag, and
the flag is what the result has no room for: the carry of a sum, that a
difference borrowed nothing, the bit that a shift pushes out. Result and flag
together lose nothing of the operands (`Opcode.Balances`).

Both are computed before either is written, so it is no matter which of the
operands they overwrite. The result is written first; where it goes into the
flag register the flag takes its place.

The other instructions that compute something have no flag, and change the flag
register only if that is where their result goes.

Key definitions: `Opcode.Balances`, `Opcode.Flags`, `Opcode.flagged?`,
`Opcode.plain?`.
Key theorems: `Opcode.balances_of_flagged?`, `Machine.execute_of_flagged?`,
`Machine.execute_of_plain?`, `Machine.arithmetic_loses_nothing`.
-/
import ChipEight.Proofs.Stepping
import ChipEight.Proofs.Faults

namespace ChipEight

namespace Opcode

/-! ### What is computed -/

/-- The result and the flag that an instruction computes from two bytes. -/
def flagged? (op : Opcode) (a b : UInt8) : Option (UInt8 × Bool) :=
  match op with
  | addReg => some (a + b, 255 < a.toNat + b.toNat)
  | subReg => some (a - b, b ≤ a)
  | shr => some (a / 2, a.toNat.testBit 0)
  | subn => some (b - a, a ≤ b)
  | shl => some (a * 2, a.toNat.testBit 7)
  | _ => none

/-- The number that an instruction without a flag computes from two registers
and its last byte. -/
def plain? (op : Opcode) (a b nn : Nat) : Option Nat :=
  match op with
  | addImm => some (a + nn)
  | or => some (a ||| b)
  | and => some (a &&& b)
  | xor => some (a ^^^ b)
  | _ => none

/-- Result `v` and flag `f` together are what comes of the operands `a` and `b`. -/
def Balances (op : Opcode) (a b v f : Int) : Prop :=
  match op with
  | addReg => v + 256 * f = a + b
  | subReg => v = a - b + 256 * (1 - f)
  | shr => a = 2 * v + f
  | subn => v = b - a + 256 * (1 - f)
  | shl => 2 * a = 256 * f + v
  | _ => False

/-- What the flag tells of the operands: a carry, that nothing is borrowed, or
the bit that is shifted out. -/
def Flags (op : Opcode) (a b : Nat) : Prop :=
  match op with
  | addReg => 256 ≤ a + b
  | subReg => b ≤ a
  | shr => a % 2 = 1
  | subn => a ≤ b
  | shl => 128 ≤ a
  | _ => False

variable {op : Opcode} {a b v : UInt8} {f : Bool}

/-- These are the instructions with a flag. -/
theorem exists_flagged? (h : op ∈ [addReg, subReg, shr, subn, shl]) (a b : UInt8) :
    ∃ v f, op.flagged? a b = some (v, f) := by
  simp only [List.mem_cons, List.not_mem_nil, or_false] at h
  rcases h with rfl | rfl | rfl | rfl | rfl
  all_goals exact ⟨_, _, rfl⟩

theorem flags_of_flagged? (h : op.flagged? a b = some (v, f)) : f ↔ op.Flags a.toNat b.toNat := by
  have ha := a.toNat_lt
  cases op
  case addReg =>
    obtain ⟨-, rfl⟩ := Prod.mk.inj (Option.some.inj h)
    exact decide_eq_true_iff
  case subReg | subn =>
    obtain ⟨-, rfl⟩ := Prod.mk.inj (Option.some.inj h)
    rw [decide_eq_true_iff, UInt8.le_iff_toNat_le]
    rfl
  case shr | shl =>
    obtain ⟨-, rfl⟩ := Prod.mk.inj (Option.some.inj h)
    rw [Nat.testBit_eq_decide_div_mod_eq, decide_eq_true_iff, Flags]
    omega
  all_goals cases h

/-- **Result and flag lose nothing.** -/
theorem balances_of_flagged? (h : op.flagged? a b = some (v, f)) :
    op.Balances a.toNat b.toNat v.toNat f.toNat := by
  have ha := a.toNat_lt
  have hb := b.toNat_lt
  -- the flag as a number, beside what it tells
  have told : op.Flags a.toNat b.toNat ∧ f.toNat = 1 ∨ ¬op.Flags a.toNat b.toNat ∧ f.toNat = 0 := by
    rw [← flags_of_flagged? h]
    cases f <;> simp
  -- and each result, cut down to a byte
  have sum : (a + b).toNat = (a.toNat + b.toNat) % 256 := UInt8.toNat_add a b
  have rest : (a - b).toNat = (256 - b.toNat + a.toNat) % 256 := UInt8.toNat_sub a b
  have rest' : (b - a).toNat = (256 - a.toNat + b.toNat) % 256 := UInt8.toNat_sub b a
  have half : (a / 2).toNat = a.toNat / 2 := UInt8.toNat_div a 2
  have double : (a * 2).toNat = a.toNat * 2 % 256 := UInt8.toNat_mul a 2
  cases op
  case addReg | subReg | subn | shr | shl =>
    obtain ⟨rfl, -⟩ := Prod.mk.inj (Option.some.inj h)
    simp only [Flags] at told
    simp only [Balances]
    omega
  all_goals cases h

end Opcode

namespace Machine

open Dimensions

variable {σ : Type} {m : Machine σ} {i : Instruction}

/-! ### What is written -/

variable [RandomSource σ]

/-- The result is written, and then the flag. -/
theorem execute_of_flagged? {v : UInt8} {f : Bool}
    (h : i.opcode.flagged? (m.reg i.x) (m.reg i.y) = some (v, f)) :
    execute i m = .done () ((m.withReg i.x v).withFlag f) := by
  cases e : i.opcode
  case addReg | subReg | shr | subn | shl =>
    rw [e] at h
    obtain ⟨rfl, rfl⟩ := Prod.mk.inj (Option.some.inj h)
    simp only [execute, e]
  all_goals simp [Opcode.flagged?, e] at h

/-- The low eight bits of the number are written. -/
theorem execute_of_plain? {n : Nat}
    (h : i.opcode.plain? (m.reg i.x).toNat (m.reg i.y).toNat i.nn.toNat = some n) :
    execute i m = .done () (m.withReg i.x (UInt8.ofNat n)) := by
  cases e : i.opcode
  case addImm | or | and | xor =>
    rw [e] at h
    obtain rfl := Option.some.inj h
    simp [execute, e]
  all_goals simp [Opcode.plain?, e] at h

/-- **Arithmetic loses nothing.** `8XY4` to `8XY7` and `8XYE` leave a flag and,
unless the flag takes its place, a result that together are what comes of the
operands as they were before; `7XNN` and `8XY1` to `8XY3` leave a result in one
byte. No other register changes, so the flag register does not either where
there is no flag and the result goes elsewhere. -/
theorem arithmetic_loses_nothing (here : m.Next i) :
    (i.opcode ∈ [.addReg, .subReg, .shr, .subn, .shl] → ∃ (m' : Machine σ) (v f : Nat),
      m.step = .done i m' ∧ v < 256 ∧ f ≤ 1 ∧
        i.opcode.Balances (m.reg i.x).toNat (m.reg i.y).toNat v f ∧
        (f = 1 ↔ i.opcode.Flags (m.reg i.x).toNat (m.reg i.y).toNat) ∧
        (m'.reg flagRegister).toNat = f ∧
        (i.x ≠ flagRegister → (m'.reg i.x).toNat = v) ∧
        ∀ r, r ≠ i.x → r ≠ flagRegister → m'.reg r = m.reg r) ∧
    ∀ n, i.opcode.plain? (m.reg i.x).toNat (m.reg i.y).toNat i.nn.toNat = some n → ∃ m',
      m.step = .done i m' ∧ (m'.reg i.x).toNat = n % 256 ∧
        ∀ r, r ≠ i.x → m'.reg r = m.reg r := by
  refine ⟨fun op => ?_, fun n h => ?_⟩
  · obtain ⟨v, f, h⟩ := Opcode.exists_flagged? op (m.reg i.x) (m.reg i.y)
    have executed : execute i m.past = .done () ((m.past.withReg i.x v).withFlag f) :=
      execute_of_flagged? h
    have done : m.step = .done i ((m.past.withReg i.x v).withFlag f).counted := by
      rw [step_of_next here, executed, Attempt.andThen_done]
    refine ⟨_, v.toNat, f.toNat, done, v.toNat_lt, f.toNat_le, Opcode.balances_of_flagged? h, ?_, ?_,
      fun other => ?_, fun r notResult notFlag => ?_⟩
    · rw [← Opcode.flags_of_flagged? h]
      cases f <;> simp
    · rw [reg_counted, reg_withFlag, if_pos rfl]
      cases f <;> rfl
    · rw [reg_counted, reg_withFlag, if_neg other, reg_withReg, if_pos rfl]
    · rw [reg_counted, reg_withFlag, if_neg notFlag, reg_withReg, if_neg notResult, reg_past]
  · have executed : execute i m.past = .done () (m.past.withReg i.x (UInt8.ofNat n)) :=
      execute_of_plain? h
    have done : m.step = .done i (m.past.withReg i.x (UInt8.ofNat n)).counted := by
      rw [step_of_next here, executed, Attempt.andThen_done]
    refine ⟨_, done, ?_, fun r other => ?_⟩
    · rw [reg_counted, reg_withReg, if_pos rfl, UInt8.toNat_ofNat']
    · rw [reg_counted, reg_withReg, if_neg other, reg_past]

/-- `8FF5` subtracts the flag register from itself. -/
def selfSubtracting : Machine Supply :=
  { filled 0x8F 0x200 0 with
    memory := (Vector.replicate 4096 0x8F).set 0x201 0xF5
    registers := .replicate 16 3 }

/-- `7777` adds to a register what goes beyond a byte. -/
def overflowing : Machine Supply :=
  { filled 0x77 0x200 0 with registers := .replicate 16 0xF0 }

/-- Nothing is borrowed, and the flag that says so takes the place of the zero
that is left. The sum is cut down to a byte, without a flag. -/
theorem selfSubtracting_flags :
    (selfSubtracting.Next ⟨0x8FF5, .subReg⟩ ∧
      Opcode.subReg ∈ [.addReg, .subReg, .shr, .subn, .shl] ∧
      ∃ m', selfSubtracting.step = .done ⟨0x8FF5, .subReg⟩ m' ∧ (m'.reg flagRegister).toNat = 1) ∧
    overflowing.Next ⟨0x7777, .addImm⟩ ∧ Opcode.plain? .addImm 0xF0 0xF0 0x77 = some 0x167 ∧
      ∃ m', overflowing.step = .done ⟨0x7777, .addImm⟩ m' ∧ (m'.reg 7).toNat = 0x67 ∧
        m'.reg flagRegister = 0xF0 := by
  have subtracts : selfSubtracting.Next ⟨0x8FF5, .subReg⟩ := by
    refine ⟨⟨by decide, ?_⟩, by decide⟩
    simp [selfSubtracting, filled, Memory.byteAt]
  have adds : overflowing.Next ⟨0x7777, .addImm⟩ := by
    refine ⟨⟨by decide, ?_⟩, by decide⟩
    simp [overflowing, filled, Memory.byteAt]
  obtain ⟨m₁, v, f, done₁, -, -, -, told, flag, -⟩ :=
    (arithmetic_loses_nothing subtracts).1 (by decide)
  obtain ⟨m₂, done₂, sum, kept⟩ := (arithmetic_loses_nothing adds).2 0x167 (by decide)
  have nothing : Opcode.Flags .subReg (selfSubtracting.reg 0xF).toNat
      (selfSubtracting.reg 0xF).toNat := Nat.le_refl _
  exact ⟨⟨subtracts, by decide, m₁, done₁, flag.trans (told.2 nothing)⟩, adds, rfl, m₂, done₂, sum,
    kept flagRegister (by decide)⟩

end Machine

end ChipEight
