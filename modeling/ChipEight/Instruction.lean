/-
# Instructions

A sixteen-bit word together with its opcode. Every operand view is there
whatever the opcode; an opcode uses those that its encoding defines.

Key definitions: `Instruction`, `Instruction.ofWord?`, `Instruction.decode`,
`Instruction.lookup`, `Instruction.encodeWords`.
Key theorems: `Instruction.decode_eq_ok_iff`, `Instruction.ofWord?_eq_some_iff`.
-/
import ChipEight.Fault
import ChipEight.Opcode

namespace ChipEight

/-- A word and its opcode. -/
structure Instruction where
  word : UInt16
  opcode : Opcode
  deriving DecidableEq, Repr

/-- Why a number is not decoded. -/
inductive DecodeError where
  /-- It is not a word of sixteen bits. -/
  | outOfRange (w : Int)
  /-- It is one, and matches no encoding. -/
  | fault (f : Fault)
  deriving DecidableEq, Repr

/-- What is said of a number that is not decoded. -/
def DecodeError.message : DecodeError → Text
  | .outOfRange w => Text.of "Instruction word out of range: " ++ Numeral.hex w
  | .fault f => f.message

namespace Instruction

/-- The register that the second digit names. -/
def x (i : Instruction) : Fin 16 := Word.x i.word

/-- The register that the third digit names. -/
def y (i : Instruction) : Fin 16 := Word.y i.word

/-- The last digit. -/
def n (i : Instruction) : Fin 16 := Word.n i.word

/-- The last byte. -/
def nn (i : Instruction) : UInt8 := Word.nn i.word

/-- The address in the last three digits. -/
def nnn (i : Instruction) : Fin 4096 := Word.nnn i.word

/-- The word in four hexadecimal digits and the mnemonic. -/
def text (i : Instruction) : Text :=
  Numeral.zeroFilled 4 i.word.toNat ++ Text.of " " ++ Text.of i.opcode.mnemonic

/-- The opcode of a word, whatever integer carries it. The fault names the low
sixteen bits. -/
def lookup (w : Int) : Except Fault Opcode :=
  match Opcode.find? w with
  | some op => .ok op
  | none => .error (.unimplemented (UInt16.ofInt w).toNat none)

/-- The instruction of a word of sixteen bits. -/
def ofWord? (w : UInt16) : Option Instruction :=
  (Opcode.find? w.toNat).map fun op => ⟨w, op⟩

/-- The instruction of a number. -/
def decode (w : Int) : Except DecodeError Instruction :=
  if 0 ≤ w ∧ w ≤ 0xFFFF then
    match ofWord? (UInt16.ofInt w) with
    | some i => .ok i
    | none => .error (.fault (.unimplemented (UInt16.ofInt w).toNat none))
  else .error (.outOfRange w)

theorem ofWord?_eq_some_iff {w : UInt16} {i : Instruction} :
    ofWord? w = some i ↔ i.word = w ∧ Opcode.find? w.toNat = some i.opcode := by
  obtain ⟨word, op⟩ := i
  simp only [ofWord?, Option.map_eq_some_iff, Instruction.mk.injEq]
  constructor
  · rintro ⟨a, h, rfl, rfl⟩
    exact ⟨rfl, h⟩
  · rintro ⟨rfl, h⟩
    exact ⟨op, h, rfl, rfl⟩

theorem decode_eq_ok_iff {w : Int} {i : Instruction} :
    decode w = .ok i ↔ (0 ≤ w ∧ w ≤ 0xFFFF) ∧ ofWord? (UInt16.ofInt w) = some i := by
  unfold decode
  by_cases h : 0 ≤ w ∧ w ≤ 0xFFFF
  · rw [if_pos h]
    split <;> simp_all
  · rw [if_neg h]
    simp [h]

/-- The two bytes of a word, the high one first. -/
def wordBytes (w : UInt16) : List UInt8 :=
  [UInt8.ofNat (w.toNat / 256), UInt8.ofNat (w.toNat % 256)]

/-- The bytes of a program of words; of each number the low sixteen bits count. -/
def encodeWords (ws : List Int) : List UInt8 := ws.flatMap fun w => wordBytes (UInt16.ofInt w)

/-- The word that two bytes make, the high one first. -/
def wordOf (high low : UInt8) : UInt16 := UInt16.ofNat (256 * high.toNat + low.toNat)

theorem length_encodeWords (ws : List Int) : (encodeWords ws).length = 2 * ws.length := by
  induction ws with
  | nil => rfl
  | cons w ws ih => simp only [encodeWords, List.flatMap_cons, List.length_append, wordBytes,
      List.length_cons, List.length_nil] at ih ⊢; omega

/-- The bytes of a word make it again. -/
theorem wordOf_wordBytes (w : UInt16) :
    wordOf (UInt8.ofNat (w.toNat / 256)) (UInt8.ofNat (w.toNat % 256)) = w := by
  have := w.toNat_lt
  apply UInt16.toNat_inj.1
  simp only [wordOf, UInt8.toNat_ofNat', UInt16.toNat_ofNat']
  omega

end Instruction

end ChipEight
