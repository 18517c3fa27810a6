/-
# Operands by themselves

The four sorts of operand that an instruction can carry, each with its
greatest value, and the check that a whole number is one of them.

Key definitions: `OperandSort`, `OperandSort.check`.
Key theorems: `OperandSort.check_eq_ok_iff`.
-/
import ChipEight.Numeral

namespace ChipEight

/-- The sorts of operand. -/
inductive OperandSort where
  /-- One of the sixteen registers. -/
  | register
  /-- A hexadecimal digit. -/
  | nibble
  /-- A byte. -/
  | byte
  /-- An address of twelve bits. -/
  | address
  deriving DecidableEq, Repr

/-- A number that is no operand of its sort. -/
structure OperandError where
  sort : OperandSort
  value : Int
  deriving DecidableEq, Repr

namespace OperandSort

/-- The greatest operand of a sort. -/
def greatest : OperandSort → Nat
  | register | nibble => 0xF
  | byte => 0xFF
  | address => 0xFFF

/-- A number as an operand of a sort. -/
def check (sort : OperandSort) (value : Int) : Except OperandError Nat :=
  if 0 ≤ value ∧ value ≤ sort.greatest then .ok value.toNat else .error ⟨sort, value⟩

theorem check_eq_ok_iff {sort : OperandSort} {value : Int} {n : Nat} :
    sort.check value = .ok n ↔ value = n ∧ n ≤ sort.greatest := by
  unfold check
  split <;> simp <;> omega

/-- The name of a register. -/
def registerText (n : Nat) : Text := Text.of "V" ++ Numeral.hexDigitsUpper n

end OperandSort

/-- What is said of a number that is no operand. -/
def OperandError.message : OperandError → Text
  | ⟨.register, v⟩ =>
    Numeral.messageOn v (Text.of "Register index out of range: " ++ Numeral.decimal v)
  | ⟨.nibble, v⟩ => Text.of "Nibble out of range: " ++ Numeral.hex v
  | ⟨.byte, v⟩ => Text.of "Imm8 out of range: " ++ Numeral.hex v
  | ⟨.address, v⟩ => Text.of "Addr12 out of range: " ++ Numeral.hex v

end ChipEight
