/-
# Differences between snapshots

What changed from one snapshot to another: the processor fields, the timers
and the keys that differ, each with both values, and whether memory and
display differ at all. With nothing to compare with, every processor field and
timer counts as changed from no value, the keys are compared with a keypad on
which none is pressed, and memory and display count as changed.

Key definitions: `Change`, `Diff`, `Diff.between`, `Diff.isEmpty`,
`CpuState.get`, `Timers.get`.
Key theorems: `changes_eq_nil_iff`, `Diff.isEmpty_empty`.
-/
import ChipEight.Snapshot

namespace ChipEight

/-- The fields of the processor, in their order. -/
inductive CpuField where
  | pc | index | sp | registers | stack | instructionCount
  deriving DecidableEq, Repr

/-- The two timers, in their order. -/
inductive TimerField where
  | delay | sound
  deriving DecidableEq, Repr

/-- The value of a field of the processor. -/
inductive CpuValue where
  /-- A counter or the index register. -/
  | number (n : Int)
  /-- The general registers. -/
  | registers (v : Vector UInt8 16)
  /-- The slots of the stack. -/
  | stack (v : Vector Int 16)
  deriving DecidableEq

namespace CpuField

/-- Every field. -/
def all : List CpuField := [pc, index, sp, registers, stack, instructionCount]

/-- The public name of a field. -/
def name : CpuField → String
  | pc => "pc"
  | index => "index"
  | sp => "sp"
  | registers => "registers"
  | stack => "stack"
  | instructionCount => "instruction_count"

end CpuField

namespace TimerField

/-- Both timers. -/
def all : List TimerField := [delay, sound]

/-- The public name of a timer. -/
def name : TimerField → String
  | delay => "delay"
  | sound => "sound"

end TimerField

/-- The value of a field. -/
def CpuState.get (s : CpuState) : CpuField → CpuValue
  | .pc => .number s.pc
  | .index => .number s.index
  | .sp => .number s.sp.val
  | .registers => .registers s.registers
  | .stack => .stack s.stack
  | .instructionCount => .number s.instructionCount

/-- The value of a timer. -/
def Timers.get (t : Timers) : TimerField → Int
  | .delay => t.delay
  | .sound => t.sound

/-- A field that differs, with its values before and after. -/
structure Change (φ α : Type) where
  field : φ
  before : Option α
  after : α
  deriving DecidableEq

/-- The fields of a list that differ, in its order. -/
def changes {φ α : Type} [DecidableEq α] (fields : List φ) (before after : φ → α) :
    List (Change φ α) :=
  (fields.filter fun f => before f ≠ after f).map fun f => ⟨f, some (before f), after f⟩

/-- Every field of a list as changed from no value. -/
def appearances {φ α : Type} (fields : List φ) (after : φ → α) : List (Change φ α) :=
  fields.map fun f => ⟨f, none, after f⟩

/-- No field is listed exactly if none differs. -/
theorem changes_eq_nil_iff {φ α : Type} [DecidableEq α] {fields : List φ} {before after : φ → α} :
    changes fields before after = [] ↔ ∀ f ∈ fields, before f = after f := by
  simp [changes]

/-- What changed from one snapshot to another. -/
structure Diff where
  cpu : List (Change CpuField CpuValue) := []
  timers : List (Change TimerField Int) := []
  keys : List (Change Key Bool) := []
  memoryChanged : Bool := false
  displayChanged : Bool := false
  deriving DecidableEq

namespace Diff

/-- The difference that tells of no change. -/
def empty : Diff := {}

/-- Whether nothing changed. -/
def isEmpty (d : Diff) : Bool :=
  d.cpu.isEmpty && d.timers.isEmpty && d.keys.isEmpty && !d.memoryChanged && !d.displayChanged

theorem isEmpty_empty : empty.isEmpty = true := rfl

/-- The keys that differ between two keypads. -/
def keyChanges (before after : Keypad) : List (Change Key Bool) :=
  changes Keypad.keys before.isPressed after.isPressed

/-- What changed up to a snapshot, from another one or from nothing. -/
def between : (before : Option Snapshot) → (after : Snapshot) → Diff
  | none, b => {
      cpu := appearances CpuField.all b.cpu.get
      timers := appearances TimerField.all b.timers.get
      keys := keyChanges Keypad.released b.keypad
      memoryChanged := true
      displayChanged := true }
  | some a, b => {
      cpu := changes CpuField.all a.cpu.get b.cpu.get
      timers := changes TimerField.all a.timers.get b.timers.get
      keys := keyChanges a.keypad b.keypad
      memoryChanged := a.memory != b.memory
      displayChanged := a.display != b.display }

/-- The public name of a key. -/
def keyName (k : Key) : Text := Text.of "key_" ++ Numeral.hexDigitsUpper k.val

end Diff

end ChipEight
