/-
# Encodings

What the words of an opcode look like: a whole word, a top digit, a top digit
with a last digit, or a top digit with a last byte. The patterns are read off
the opcode, where the tables are read off the word; the two agree, so a word
is looked up successfully iff some opcode's pattern fits it, and no word fits
two of them.

Key definitions: `Pattern`, `Pattern.Fits`, `Opcode.pattern`.
Key theorems: `Opcode.find?_eq_some_iff`, `Opcode.find?_eq_none_iff`.
-/
import ChipEight.Instruction
import Mathlib.Tactic.Common

namespace ChipEight

/-- What is fixed in the words of an opcode. -/
inductive Pattern where
  /-- The whole word. -/
  | word (w : Nat)
  /-- The top digit. -/
  | family (f : Nat)
  /-- The top digit and the last one. -/
  | lastDigit (f d : Nat)
  /-- The top digit and the last byte. -/
  | lastByte (f b : Nat)
  deriving DecidableEq, Repr

/-- The words that have what a pattern fixes. -/
def Pattern.Fits (w : UInt16) : Pattern → Prop
  | word v => w.toNat = v
  | family f => (Word.family w).val = f
  | lastDigit f d => (Word.family w).val = f ∧ (Word.n w).val = d
  | lastByte f b => (Word.family w).val = f ∧ (Word.nn w).toNat = b

instance (w : UInt16) (p : Pattern) : Decidable (p.Fits w) := by
  cases p <;> unfold Pattern.Fits <;> infer_instance

namespace Opcode

/-- What the words of an opcode have in common. -/
def pattern : Opcode → Pattern
  | nop => .word 0x0000
  | cls => .word 0x00E0
  | ret => .word 0x00EE
  | jp => .family 0x1
  | call => .family 0x2
  | seImm => .family 0x3
  | sneImm => .family 0x4
  | seReg => .family 0x5
  | ldImm => .family 0x6
  | addImm => .family 0x7
  | ldReg => .lastDigit 0x8 0x0
  | or => .lastDigit 0x8 0x1
  | and => .lastDigit 0x8 0x2
  | xor => .lastDigit 0x8 0x3
  | addReg => .lastDigit 0x8 0x4
  | subReg => .lastDigit 0x8 0x5
  | shr => .lastDigit 0x8 0x6
  | subn => .lastDigit 0x8 0x7
  | shl => .lastDigit 0x8 0xE
  | sneReg => .lastDigit 0x9 0x0
  | ldI => .family 0xA
  | jpV0 => .family 0xB
  | rnd => .family 0xC
  | drw => .family 0xD
  | skp => .lastByte 0xE 0x9E
  | sknp => .lastByte 0xE 0xA1
  | ldVxDt => .lastByte 0xF 0x07
  | ldKey => .lastByte 0xF 0x0A
  | ldDtVx => .lastByte 0xF 0x15
  | ldStVx => .lastByte 0xF 0x18
  | addI => .lastByte 0xF 0x1E
  | ldF => .lastByte 0xF 0x29
  | bcd => .lastByte 0xF 0x33
  | store => .lastByte 0xF 0x55
  | load => .lastByte 0xF 0x65

/-! ### From the tables to the patterns -/

theorem pattern_of_byWord? {w : Nat} {op : Opcode} (h : byWord? w = some op) :
    op.pattern = .word w := by
  unfold byWord? at h
  split_ifs at h with h0 h1 h2
  all_goals
    obtain rfl := Option.some.inj h
    simp only [pattern]
    congr 1
    omega

theorem pattern_of_byFamily? {f : Nat} {op : Opcode} (h : byFamily? f = some op) :
    op.pattern = .family f := by
  unfold byFamily? at h
  split at h <;> first | contradiction | (obtain rfl := Option.some.inj h; rfl)

theorem pattern_of_byLastDigit? {f d : Nat} {op : Opcode} (h : byLastDigit? f d = some op) :
    op.pattern = .lastDigit f d := by
  unfold byLastDigit? at h
  split at h <;> first | contradiction | (obtain rfl := Option.some.inj h; rfl)

theorem pattern_of_byLastByte? {f b : Nat} {op : Opcode} (h : byLastByte? f b = some op) :
    op.pattern = .lastByte f b := by
  unfold byLastByte? at h
  split at h <;> first | contradiction | (obtain rfl := Option.some.inj h; rfl)

/-! ### From the patterns to the tables -/

/-- A word is the low sixteen bits of itself. -/
theorem ofInt_toNat (w : UInt16) : UInt16.ofInt w.toNat = w := by
  have := w.toNat_lt
  apply UInt16.toNat_inj.1
  simp only [UInt16.ofInt, UInt16.toNat_ofNat']
  omega

theorem byWord?_eq_none {w : UInt16} (h : (Word.family w).val ≠ 0) : byWord? w.toNat = none := by
  simp only [Word.family] at h
  rw [byWord?, if_neg (by omega), if_neg (by omega), if_neg (by omega)]

/-- The table that an opcode stands in finds it, and the tables before that one
find nothing. -/
theorem find?_of_fits {w : UInt16} {op : Opcode} (h : op.pattern.Fits w) :
    find? w.toNat = some op := by
  unfold find?
  rw [ofInt_toNat]
  cases op
  case nop | cls | ret =>
    simp only [pattern, Pattern.Fits] at h
    simp [h, byWord?]
  all_goals
    simp only [pattern, Pattern.Fits] at h
    rw [byWord?_eq_none (by omega)]
    simp [h, byFamily?, byLastDigit?, byLastByte?]

/-- **The tables find the opcode whose pattern fits.** -/
theorem find?_eq_some_iff {w : UInt16} {op : Opcode} :
    find? w.toNat = some op ↔ op.pattern.Fits w := by
  refine ⟨fun h => ?_, find?_of_fits⟩
  simp only [find?, ofInt_toNat, Option.orElse_eq_orElse, Option.orElse_eq_or,
    Option.or_eq_some_iff] at h
  rcases h with h | ⟨-, h | ⟨-, h | ⟨-, h⟩⟩⟩
  · rw [pattern_of_byWord? h]; rfl
  · rw [pattern_of_byFamily? h]; rfl
  · rw [pattern_of_byLastDigit? h]; exact ⟨rfl, rfl⟩
  · rw [pattern_of_byLastByte? h]; exact ⟨rfl, rfl⟩

theorem find?_eq_none_iff {w : UInt16} :
    find? w.toNat = none ↔ ∀ op : Opcode, ¬op.pattern.Fits w := by
  simp only [← find?_eq_some_iff, Option.eq_none_iff_forall_ne_some, ne_eq]

end Opcode

end ChipEight
