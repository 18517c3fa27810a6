/-
# Faults

What can go wrong while a machine is driven. Most faults belong to the
machine's own family and have a kind and a message; a few are outside it: they
come from a configuration that gives a real number where only a whole one can
be used, from a timer set beyond a byte, or from a key whose number is too long
for the message that is to name it. No fault is recovered from by the machine
itself: the host is to reset it.

An operation that may fault leaves a state behind either way, so its outcome
is an `Attempt`: what it answers or the fault, and the state afterwards.

Key definitions: `Fault`, `Fault.kind?`, `Fault.message`, `Attempt`.
-/
import ChipEight.Dimensions
import ChipEight.Numeral

namespace ChipEight

/-- The kinds of fault that the machine's own family has. -/
inductive FaultKind where
  /-- The family itself. -/
  | any
  /-- An instruction word that matches no encoding. -/
  | unimplementedInstruction
  /-- A call with every stack slot in use. -/
  | stackOverflow
  /-- A return with nothing on the stack. -/
  | stackUnderflow
  /-- An access outside memory. -/
  | memoryAccess
  /-- A program that does not fit. -/
  | programTooLarge
  /-- A key that the keypad does not have. -/
  | invalidKey
  deriving DecidableEq, Repr

/-- The wider classes of error that a host may catch a fault under. -/
inductive FaultClass where
  /-- Every fault of the family. -/
  | family
  /-- A place that is not there. -/
  | badIndex
  /-- A value that will not do. -/
  | badValue
  deriving DecidableEq, Repr

/-- The classes of a kind, in the order of their declaration. -/
def FaultKind.classes : FaultKind → List FaultClass
  | .any | .unimplementedInstruction => [.family]
  | .stackOverflow | .stackUnderflow | .memoryAccess => [.family, .badIndex]
  | .programTooLarge | .invalidKey => [.family, .badValue]

/-- What went wrong. -/
inductive Fault where
  /-- The word matches no encoding; the address is that of the word, if known. -/
  | unimplemented (word : Nat) (address : Option Int)
  /-- A call with every stack slot in use. -/
  | stackOverflow
  /-- A return with nothing on the stack. -/
  | stackUnderflow
  /-- Data outside memory; the address is one of those asked for. -/
  | memoryAccess (address : Int)
  /-- An instruction outside memory. -/
  | fetchOutOfRange (pc : Int)
  /-- A program of this many bytes does not fit. -/
  | programTooLarge (size : Nat)
  /-- There is no key of this number. -/
  | keyOutOfRange (index : Int)
  /-- The key was given as a value that is no whole number, shown here. -/
  | keyNotInteger (shown : Text)
  /-- A number has too many digits for a message. -/
  | numeralTooLong
  /-- A register would have to hold a number that is no byte. -/
  | notAByte (value : Int)
  /-- A decimal digit would have to be stored as a real number. -/
  | realDigit
  /-- A frame would have to run a real number of instructions. -/
  | realBudget
  /-- A rate is too large to be divided as a real number. -/
  | rateTooLarge
  deriving DecidableEq, Repr

namespace Fault

/-- The kind of a fault of the machine's own family, and `none` outside it. -/
def kind? : Fault → Option FaultKind
  | .unimplemented .. => some .unimplementedInstruction
  | .stackOverflow => some .stackOverflow
  | .stackUnderflow => some .stackUnderflow
  | .memoryAccess _ | .fetchOutOfRange _ => some .memoryAccess
  | .programTooLarge _ => some .programTooLarge
  | .keyOutOfRange _ | .keyNotInteger _ => some .invalidKey
  | .numeralTooLong | .notAByte _ | .realDigit | .realBudget | .rateTooLarge => none

/-- The message for an instruction word, with the place it was met at. -/
def unimplementedMessage (word : Nat) (place : Text) : Text :=
  Text.of "Unimplemented opcode " ++ Numeral.hexPadded 4 word ++ place

/-- The message for an access to data outside memory. -/
def memoryAccessMessage (address : Int) : Text :=
  Text.of "Memory access out of range: " ++ Numeral.hexPadded 4 address

/-- What is said of a fault. -/
def message : Fault → Text
  | .unimplemented word none => unimplementedMessage word []
  | .unimplemented word (some address) =>
    unimplementedMessage word (Text.of " at " ++ Numeral.hexPadded 3 address)
  | .stackOverflow =>
    Text.of "Call stack overflow (depth " ++ Numeral.decimal Dimensions.stackDepth ++ Text.of ")"
  | .stackUnderflow => Text.of "Return with empty call stack"
  | .memoryAccess address => memoryAccessMessage address
  | .fetchOutOfRange pc =>
    Text.of "Instruction fetch out of range: pc=" ++ Numeral.hexPadded 4 pc
  | .programTooLarge size =>
    Text.of "Program size " ++ Numeral.decimal size ++ Text.of " exceeds maximum "
      ++ Numeral.decimal Dimensions.maxProgramSize
  | .keyOutOfRange index => Text.of "Key index out of range: " ++ Numeral.decimal index
  | .keyNotInteger shown => Text.of "Key index must be an integer: " ++ shown
  | .numeralTooLong => Numeral.overLimit none
  | .notAByte _ => Text.of "byte must be in range(0, 256)"
  | .realDigit => Text.of "A real number cannot be stored in memory"
  | .realBudget => Text.of "A frame cannot run a real number of instructions"
  | .rateTooLarge => Text.of "The rate is too large for a real number"

/-- The address that a fault carries; only an unimplemented word may be without. -/
def address? : Fault → Option Int
  | .unimplemented _ address => address
  | .memoryAccess address => some address
  | .fetchOutOfRange pc => some pc
  | _ => none

end Fault

/-- The outcome of an operation that may fault, and the state it leaves. -/
abbrev Attempt (σ α : Type) := Except Fault α × σ

namespace Attempt

variable {σ α : Type}

/-- The operation is done and answers `a`. -/
abbrev done (a : α) (s : σ) : Attempt σ α := (.ok a, s)

/-- The operation is given up. -/
abbrev fail (f : Fault) (s : σ) : Attempt σ α := (.error f, s)

/-- Go on from where a successful operation ends. -/
@[inline] def andThen {β : Type} (x : Attempt σ α) (next : α → σ → Attempt σ β) : Attempt σ β :=
  match x with
  | (.ok a, s) => next a s
  | (.error f, s) => (.error f, s)

@[simp] theorem andThen_done {β : Type} (a : α) (s : σ) (next : α → σ → Attempt σ β) :
    andThen (done a s) next = next a s := rfl

@[simp] theorem andThen_fail {β : Type} (f : Fault) (s : σ) (next : α → σ → Attempt σ β) :
    andThen (fail f s) next = fail f s := rfl

/-- What an operation answers tells that it is done. -/
theorem eq_done_of_fst {x : Attempt σ α} {a : α} (h : x.1 = .ok a) : x = done a x.2 :=
  Prod.ext h rfl

/-- And its fault that it is given up. -/
theorem eq_fail_of_fst {x : Attempt σ α} {f : Fault} (h : x.1 = .error f) : x = fail f x.2 :=
  Prod.ext h rfl

/-- Three parts go one after the other however they are put together. -/
theorem andThen_assoc {β γ : Type} (x : Attempt σ α) (next : α → σ → Attempt σ β)
    (last : β → σ → Attempt σ γ) :
    (x.andThen next).andThen last = x.andThen fun a s => (next a s).andThen last := by
  rcases x with ⟨_ | a, s⟩ <;> rfl

/-- Both parts are done. -/
theorem andThen_eq_done_iff {β : Type} {x : Attempt σ α} {next : α → σ → Attempt σ β} {b : β}
    {s : σ} : x.andThen next = done b s ↔ ∃ a t, x = done a t ∧ next a t = done b s := by
  rcases x with ⟨_ | a, t⟩
  · simp [andThen]
  · exact ⟨fun h => ⟨a, t, rfl, h⟩, fun ⟨_, _, rfl, h⟩ => h⟩

/-- The first part is given up, or the second after it. -/
theorem andThen_eq_fail_iff {β : Type} {x : Attempt σ α} {next : α → σ → Attempt σ β} {f : Fault}
    {s : σ} : x.andThen next = fail f s ↔
      x = fail f s ∨ ∃ a t, x = done a t ∧ next a t = fail f s := by
  rcases x with ⟨_ | a, t⟩
  · simp [andThen]
  · constructor
    · exact fun h => .inr ⟨a, t, rfl, h⟩
    · intro
      | .inl h => cases h
      | .inr ⟨_, _, rfl, h⟩ => exact h

end Attempt

end ChipEight
