/-
# The machine

The whole state of a machine and what its host may do to it between
instructions: switch it on and reset it, load a program, set keys, tick and
set the timers, and look at the tone. A machine is generic in its source of
random bytes.

The program counter and the index register are whole numbers without bounds:
a jump may lead outside memory, and only the fetch or the access there faults.
Slots of the stack from `sp` on are dead, and keep what was last put there.

Key definitions: `Machine`, `Machine.powerOn`, `Machine.reset`,
`Machine.load`.
Key theorems: `Machine.reset_eq_powerOn`, `Machine.load_eq_done_iff`.
-/
import ChipEight.Config
import ChipEight.Grid
import ChipEight.Keypad
import ChipEight.Memory
import ChipEight.Random.Source
import ChipEight.Timers

namespace ChipEight

/-- The state of a machine. -/
structure Machine (σ : Type) where
  config : Config
  random : σ
  memory : Memory
  registers : Vector UInt8 16
  stack : Vector Int 16
  sp : Fin 17
  pc : Int
  index : Int
  display : Grid 64 32
  keypad : Keypad
  timers : Timers
  /-- How many instructions were executed since the last reset. -/
  instructionCount : Nat

namespace Machine

variable {σ α : Type}

/-! ### Lifecycle -/

/-- A machine just switched on: the font is in memory and all else is zero. -/
def powerOn (config : Config) (random : σ) : Machine σ where
  config := config
  random := random
  memory := Memory.initial
  registers := .replicate 16 0
  stack := .replicate 16 0
  sp := 0
  pc := Dimensions.programStart
  index := 0
  display := Grid.blank
  keypad := Keypad.released
  timers := {}
  instructionCount := 0

/-- The machine with each part of its state put back in place, and the font loaded
again. The configuration stays, and the random source goes on from where it is. -/
def reset (m : Machine σ) : Machine σ :=
  let cleared : Machine σ := { m with
    memory := .replicate 4096 0
    registers := .replicate 16 0
    stack := m.stack.map fun _ => 0
    sp := 0
    pc := Dimensions.programStart
    index := 0
    display := m.display.clear
    keypad := m.keypad.reset
    timers := m.timers.reset
    instructionCount := 0 }
  { cleared with memory := Memory.overlay Dimensions.fontBase Font.bytes cleared.memory }

/-- The machine as it was switched on. -/
theorem reset_eq_powerOn (m : Machine σ) : m.reset = powerOn m.config m.random := by
  have stack : (m.stack.map fun _ => (0 : Int)) = .replicate 16 0 := by
    ext i hi
    simp
  simp only [reset, powerOn, stack, Grid.clear_eq_blank, Keypad.reset_eq_released]
  rfl

theorem reset_powerOn (config : Config) (random : σ) :
    reset (powerOn config random) = powerOn config random := reset_eq_powerOn _

/-- The machine with a program in memory. What an earlier program left beyond
its end stays; a program that does not fit is not loaded at all. -/
def load (program : List UInt8) (m : Machine σ) : Attempt (Machine σ) Unit :=
  if Dimensions.maxProgramSize < program.length then .fail (.programTooLarge program.length) m
  else .done () { m with memory := Memory.overlay Dimensions.programStart program m.memory }

theorem load_eq_done_iff (program : List UInt8) (m m' : Machine σ) :
    m.load program = .done () m' ↔ program.length ≤ 3584 ∧
      m' = { m with memory := Memory.overlay 512 program m.memory } := by
  unfold load
  split
  · rename_i h
    have : ¬program.length ≤ 3584 := by
      simp only [Dimensions.maxProgramSize, Dimensions.memorySize, Dimensions.programStart] at h
      omega
    simp [this]
  · rename_i h
    have : program.length ≤ 3584 := by
      simp only [Dimensions.maxProgramSize, Dimensions.memorySize, Dimensions.programStart] at h
      omega
    simp [this, eq_comm]

/-! ### Host inputs -/

/-- An operation on the keypad as one on the machine. -/
def onKeypad (f : Keypad → Attempt Keypad α) (m : Machine σ) : Attempt (Machine σ) α :=
  let (r, p) := f m.keypad
  (r, { m with keypad := p })

/-- Operations on the keypad go one after the other as operations on the machine. -/
theorem onKeypad_andThen {β : Type} (f : Keypad → Attempt Keypad α)
    (g : α → Keypad → Attempt Keypad β) (m : Machine σ) :
    m.onKeypad (fun p => (f p).andThen g) = (m.onKeypad f).andThen fun a m => m.onKeypad (g a) := by
  simp only [onKeypad]
  rcases f m.keypad with ⟨_ | a, p⟩ <;> rfl

/-- Set the key that a value names. -/
def setKey (index : Json) (pressed : Bool) : Machine σ → Attempt (Machine σ) Unit :=
  onKeypad (Keypad.setKey index pressed)

/-- Press the key that a value names. -/
def pressKey (index : Json) : Machine σ → Attempt (Machine σ) Unit := setKey index true

/-- Release the key that a value names. -/
def releaseKey (index : Json) : Machine σ → Attempt (Machine σ) Unit := setKey index false

/-- One tick of both timers. -/
def tickTimers (m : Machine σ) : Machine σ := { m with timers := m.timers.tick }

/-- Set the delay timer to the low eight bits of a number. -/
def setDelay (v : Int) (m : Machine σ) : Machine σ :=
  { m with timers := { m.timers with delay := v % 256 } }

/-- Set the sound timer to the low eight bits of a number. -/
def setSound (v : Int) (m : Machine σ) : Machine σ :=
  { m with timers := { m.timers with sound := v % 256 } }

/-- Whether the tone sounds. -/
def soundActive (m : Machine σ) : Bool := m.timers.soundActive

end Machine

end ChipEight
