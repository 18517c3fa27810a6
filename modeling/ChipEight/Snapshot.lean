/-
# Snapshots

All that a host can see of a machine, at one moment: the processor with its
counters, registers and stack (dead slots included), the timers, the keys, the
memory, and the display packed into bytes. Configuration and random source are
not part of it.

Key definitions: `CpuState`, `Snapshot`, `Machine.snapshot`.
Key theorems: `Machine.snapshot_reset`.
-/
import ChipEight.Grid.Views
import ChipEight.Machine

namespace ChipEight

/-- The state of the processor. -/
structure CpuState where
  pc : Int
  index : Int
  sp : Fin 17
  registers : Vector UInt8 16
  stack : Vector Int 16
  instructionCount : Nat
  deriving DecidableEq

/-- The state of a whole machine. -/
structure Snapshot where
  cpu : CpuState
  timers : Timers
  keypad : Keypad
  memory : Memory
  display : List UInt8
  deriving DecidableEq

namespace Machine

variable {σ : Type}

/-- The state of the processor. -/
def cpu (m : Machine σ) : CpuState :=
  ⟨m.pc, m.index, m.sp, m.registers, m.stack, m.instructionCount⟩

/-- The state of the machine as it is now. -/
def snapshot (m : Machine σ) : Snapshot :=
  ⟨m.cpu, m.timers, m.keypad, m.memory, m.display.packed⟩

/-- After a reset the state is that of a machine just switched on, whatever the
configurations and the sources. -/
theorem snapshot_reset {τ : Type} (m : Machine σ) (config : Config) (random : τ) :
    m.reset.snapshot = (powerOn config random).snapshot := by
  rw [reset_eq_powerOn]
  rfl

end Machine

end ChipEight
