/-
# Opcodes

The thirty-five opcodes, their mnemonics, and the tables that an instruction
word is looked up in. The first table compares the whole number and holds the
encodings without operands; the others look at fields of the low sixteen bits
only: the top hexadecimal digit (the family), the family with the last digit,
and the family with the last byte. A word of no table has no opcode.

Key definitions: `Opcode`, `Opcode.mnemonic`, `Opcode.find?`, `Word.family`.
Key theorems: `Word.value_eq`, `Opcode.mem_all`.
-/

namespace ChipEight

/-! ### Fields of a word -/

namespace Word

/-- The top hexadecimal digit. -/
def family (w : UInt16) : Fin 16 := ⟨w.toNat / 4096, by have := w.toNat_lt; omega⟩

/-- The second digit, which names a register in most encodings. -/
def x (w : UInt16) : Fin 16 := ⟨w.toNat / 256 % 16, by omega⟩

/-- The third digit, which names a register in some encodings. -/
def y (w : UInt16) : Fin 16 := ⟨w.toNat / 16 % 16, by omega⟩

/-- The last digit. -/
def n (w : UInt16) : Fin 16 := ⟨w.toNat % 16, by omega⟩

/-- The last two digits. -/
def nn (w : UInt16) : UInt8 := UInt8.ofNat (w.toNat % 256)

/-- The last three digits, an address. -/
def nnn (w : UInt16) : Fin 4096 := ⟨w.toNat % 4096, by omega⟩

/-- The four hexadecimal digits, most significant first. -/
def nibbles (w : UInt16) : List (Fin 16) := [family w, x w, y w, n w]

/-- A word is what its digits spell. -/
theorem value_eq (w : UInt16) :
    w.toNat = 4096 * (family w).val + 256 * (x w).val + 16 * (y w).val + (n w).val := by
  have := w.toNat_lt
  simp only [family, x, y, n]
  omega

theorem toNat_nn (w : UInt16) : (nn w).toNat = 16 * (y w).val + (n w).val := by
  simp only [nn, y, n, UInt8.toNat_ofNat']
  omega

theorem val_nnn (w : UInt16) : (nnn w).val = 256 * (x w).val + (nn w).toNat := by
  simp only [nnn, x, nn, UInt8.toNat_ofNat']
  omega

end Word

/-! ### Opcodes -/

/-- What an instruction does. -/
inductive Opcode where
  | nop | cls | ret | jp | call | seImm | sneImm | seReg | ldImm | addImm
  | ldReg | or | and | xor | addReg | subReg | shr | subn | shl | sneReg
  | ldI | jpV0 | rnd | drw | skp | sknp
  | ldVxDt | ldKey | ldDtVx | ldStVx | addI | ldF | bcd | store | load
  deriving DecidableEq, Repr

namespace Opcode

/-- Every opcode, in the order of the encodings. -/
def all : List Opcode := [
  nop, cls, ret, jp, call, seImm, sneImm, seReg, ldImm, addImm,
  ldReg, or, and, xor, addReg, subReg, shr, subn, shl, sneReg,
  ldI, jpV0, rnd, drw, skp, sknp,
  ldVxDt, ldKey, ldDtVx, ldStVx, addI, ldF, bcd, store, load]

theorem mem_all (op : Opcode) : op ∈ all := by
  cases op <;> decide

/-- The name of an opcode. -/
def mnemonic : Opcode → String
  | nop => "NOP"
  | cls => "CLS"
  | ret => "RET"
  | jp => "JP"
  | call => "CALL"
  | seImm => "SE_IMM"
  | sneImm => "SNE_IMM"
  | seReg => "SE_REG"
  | ldImm => "LD_IMM"
  | addImm => "ADD_IMM"
  | ldReg => "LD_REG"
  | or => "OR"
  | and => "AND"
  | xor => "XOR"
  | addReg => "ADD_REG"
  | subReg => "SUB_REG"
  | shr => "SHR"
  | subn => "SUBN"
  | shl => "SHL"
  | sneReg => "SNE_REG"
  | ldI => "LD_I"
  | jpV0 => "JP_V0"
  | rnd => "RND"
  | drw => "DRW"
  | skp => "SKP"
  | sknp => "SKNP"
  | ldVxDt => "LD_VX_DT"
  | ldKey => "LD_KEY"
  | ldDtVx => "LD_DT_VX"
  | ldStVx => "LD_ST_VX"
  | addI => "ADD_I"
  | ldF => "LD_F"
  | bcd => "BCD"
  | store => "STORE"
  | load => "LOAD"

/-! ### Tables -/

/-- The encodings without operands. The whole number is compared, so a number
beyond sixteen bits is none of them. -/
def byWord? (w : Int) : Option Opcode :=
  if w = 0x0000 then some nop
  else if w = 0x00E0 then some cls
  else if w = 0x00EE then some ret
  else none

/-- The families with one opcode each. The last digit of `5XY_` is free. -/
def byFamily? : Nat → Option Opcode
  | 0x1 => some jp
  | 0x2 => some call
  | 0x3 => some seImm
  | 0x4 => some sneImm
  | 0x5 => some seReg
  | 0x6 => some ldImm
  | 0x7 => some addImm
  | 0xA => some ldI
  | 0xB => some jpV0
  | 0xC => some rnd
  | 0xD => some drw
  | _ => none

/-- The families whose opcode is told by the last digit. -/
def byLastDigit? : (family digit : Nat) → Option Opcode
  | 0x8, 0x0 => some ldReg
  | 0x8, 0x1 => some or
  | 0x8, 0x2 => some and
  | 0x8, 0x3 => some xor
  | 0x8, 0x4 => some addReg
  | 0x8, 0x5 => some subReg
  | 0x8, 0x6 => some shr
  | 0x8, 0x7 => some subn
  | 0x8, 0xE => some shl
  | 0x9, 0x0 => some sneReg
  | _, _ => none

/-- The families whose opcode is told by the last byte. -/
def byLastByte? : (family byte : Nat) → Option Opcode
  | 0xE, 0x9E => some skp
  | 0xE, 0xA1 => some sknp
  | 0xF, 0x07 => some ldVxDt
  | 0xF, 0x0A => some ldKey
  | 0xF, 0x15 => some ldDtVx
  | 0xF, 0x18 => some ldStVx
  | 0xF, 0x1E => some addI
  | 0xF, 0x29 => some ldF
  | 0xF, 0x33 => some bcd
  | 0xF, 0x55 => some store
  | 0xF, 0x65 => some load
  | _, _ => none

/-- The opcode of a word, whatever integer carries it. Negative numbers have
the low bits that two's complement gives them. -/
def find? (w : Int) : Option Opcode :=
  let low := UInt16.ofInt w
  let family := (Word.family low).val
  byWord? w <|> byFamily? family <|> byLastDigit? family (Word.n low).val
    <|> byLastByte? family (Word.nn low).toNat

end Opcode

end ChipEight
