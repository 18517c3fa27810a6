/-
# Executing instructions

One step fetches the word at the program counter, moves the counter past it,
decodes the word and executes the instruction. A fault leaves the machine as
it was, save that the counter has moved if the word was fetched; only a real
modulus lets `FX33` write two digits before it faults at the third.

Where an instruction sets the flag it does so after its result, so register
`F` as a destination ends up with the flag.

Key definitions: `Machine.fetch?`, `Machine.execute`, `Machine.step`,
`Machine.run`.
Key theorems: `Machine.reg_withReg`, `Machine.steps_add`,
`Machine.run_of_nonpositive`.
-/
import ChipEight.Instruction
import ChipEight.Machine

namespace ChipEight

namespace Machine

variable {σ : Type}

/-! ### Parts of instructions -/

/-- The value of a register. -/
def reg (m : Machine σ) (r : Fin 16) : UInt8 := m.registers[r]

/-- The machine with a register set. -/
def withReg (m : Machine σ) (r : Fin 16) (v : UInt8) : Machine σ :=
  { m with registers := m.registers.set r v }

/-- The machine with the flag set. -/
def withFlag (m : Machine σ) (flag : Bool) : Machine σ :=
  m.withReg Dimensions.flagRegister (if flag then 1 else 0)

theorem reg_withReg (m : Machine σ) (r s : Fin 16) (v : UInt8) :
    (m.withReg r v).reg s = if s = r then v else m.reg s := by
  by_cases here : s = r
  · subst here
    rw [if_pos rfl]
    exact Vector.getElem_set_self _
  · have apart : r.val ≠ s.val := fun e => here (Fin.ext e.symm)
    rw [if_neg here]
    exact Vector.getElem_set_ne r.isLt s.isLt apart

theorem reg_withFlag (m : Machine σ) (s : Fin 16) (flag : Bool) :
    (m.withFlag flag).reg s =
      if s = Dimensions.flagRegister then (if flag then 1 else 0) else m.reg s :=
  reg_withReg ..

/-- The machine with the next instruction left out if a condition holds. -/
def skipIf (condition : Bool) (m : Machine σ) : Machine σ :=
  if condition then { m with pc := m.pc + Dimensions.instructionSize } else m

/-- Go to a subroutine, from which the present program counter is returned to. -/
def call (target : Int) (m : Machine σ) : Attempt (Machine σ) Unit :=
  if h : m.sp.val < 16 then
    .done () { m with
      stack := m.stack.set m.sp.val m.pc h
      sp := ⟨m.sp.val + 1, by omega⟩
      pc := target }
  else .fail .stackOverflow m

/-- Go back to where the present subroutine was called from. -/
def ret (m : Machine σ) : Attempt (Machine σ) Unit :=
  if h : m.sp.val = 0 then .fail .stackUnderflow m
  else
    let top : Fin 16 := ⟨m.sp.val - 1, by omega⟩
    .done () { m with sp := ⟨m.sp.val - 1, by omega⟩, pc := m.stack[top] }

/-- Go on only if the bytes from the index register on are in memory. -/
def withSpan (length : Nat) (m : Machine σ) (next : Attempt (Machine σ) Unit) :
    Attempt (Machine σ) Unit :=
  match Span.outside? m.index length with
  | some address => .fail (.memoryAccess address) m
  | none => next

/-- The machine with bytes written from the index register on. -/
def write (bytes : List UInt8) (m : Machine σ) : Machine σ :=
  { m with memory := Memory.overlay m.index.toNat bytes m.memory }

/-- The bytes from the index register on. -/
def read (length : Nat) (m : Machine σ) : List UInt8 := Memory.slice m.index.toNat length m.memory

/-- Draw the sprite of so many rows at the index register. Its columns start
at the value of `y` and its rows at that of `x`; the flag tells of a
collision. -/
def draw (x y : Fin 16) (height : Nat) (m : Machine σ) : Attempt (Machine σ) Unit :=
  m.withSpan height <|
    let (hit, display) :=
      m.display.drawSprite (by decide) (by decide) (m.reg y).toNat (m.reg x).toNat (m.read height)
    .done () ({ m with display := display }.withFlag hit)

/-- The first two decimal digits of a byte: its hundreds and its tens. -/
def leadingDigits (v : UInt8) : List UInt8 := [v / 100, v / 10 % 10]

/-- Write the decimal digits of a byte. The last cell takes the byte modulo the
configured modulus, which must be whole for it to be stored. -/
def storeDigits (v : UInt8) (m : Machine σ) : Attempt (Machine σ) Unit :=
  m.withSpan 3 <|
    match m.config.onesModulus.whole? with
    | some modulus => .done () (m.write (leadingDigits v ++ [UInt8.ofNat (v.toNat % modulus)]))
    | none => .fail .realDigit (m.write (leadingDigits v))

/-- Write the registers from the first to `x`. -/
def storeRegisters (x : Fin 16) (m : Machine σ) : Attempt (Machine σ) Unit :=
  m.withSpan (x.val + 1) <| .done () (m.write (m.registers.toList.take (x.val + 1)))

/-- Read the registers from the first to `x`. -/
def loadRegisters (x : Fin 16) (m : Machine σ) : Attempt (Machine σ) Unit :=
  m.withSpan (x.val + 1) <|
    .done () { m with
      registers := Vector.ofFn fun r : Fin 16 =>
        if r ≤ x then Memory.byteAt (m.index.toNat + r.val) m.memory else m.reg r }

/-- Put the pressed key of the lowest number in a register; without one, come
back to the same instruction. -/
def awaitKey (x : Fin 16) (m : Machine σ) : Machine σ :=
  match m.keypad.firstPressed with
  | some key => m.withReg x (UInt8.ofNat key.val)
  | none => { m with pc := m.pc - Dimensions.instructionSize }

/-- Put the delay timer in a register, which takes nothing but a byte. -/
def readDelay (x : Fin 16) (m : Machine σ) : Attempt (Machine σ) Unit :=
  if 0 ≤ m.timers.delay ∧ m.timers.delay ≤ Dimensions.byteMask then
    .done () (m.withReg x (UInt8.ofInt m.timers.delay))
  else .fail (.notAByte m.timers.delay) m

/-- Leave out the next instruction if the key whose number a register holds is
in the given state. -/
def skipOnKey (x : Fin 16) (pressed : Bool) (m : Machine σ) : Attempt (Machine σ) Unit :=
  match Key.ofInt (m.reg x).toNat with
  | .ok key => .done () (m.skipIf (m.keypad.isPressed key == pressed))
  | .error fault => .fail fault m

variable [RandomSource σ]

/-- Draw a random byte and keep some of its bits. -/
def randomize (x : Fin 16) (mask : UInt8) (m : Machine σ) : Machine σ :=
  let (byte, random) := RandomSource.nextByte m.random
  { m with random := random }.withReg x (byte &&& mask)

/-! ### Instructions -/

/-- What an instruction does, the program counter being past it. -/
def execute (i : Instruction) (m : Machine σ) : Attempt (Machine σ) Unit :=
  let vx := m.reg i.x
  let vy := m.reg i.y
  match i.opcode with
  | .nop => .done () m
  | .cls => .done () { m with display := m.display.clear }
  | .ret => m.ret
  | .jp => .done () { m with pc := i.nnn.val }
  | .call => m.call i.nnn.val
  | .seImm => .done () (m.skipIf (vx == i.nn))
  | .sneImm => .done () (m.skipIf (vx != i.nn))
  | .seReg => .done () (m.skipIf (vx == vy))
  | .ldImm => .done () (m.withReg i.x i.nn)
  | .addImm => .done () (m.withReg i.x (vx + i.nn))
  | .ldReg => .done () (m.withReg i.x vy)
  | .or => .done () (m.withReg i.x (vx ||| vy))
  | .and => .done () (m.withReg i.x (vx &&& vy))
  | .xor => .done () (m.withReg i.x (vx ^^^ vy))
  | .addReg => .done () ((m.withReg i.x (vx + vy)).withFlag (255 < vx.toNat + vy.toNat))
  | .subReg => .done () ((m.withReg i.x (vx - vy)).withFlag (vy ≤ vx))
  | .shr => .done () ((m.withReg i.x (vx / 2)).withFlag (vx.toNat.testBit 0))
  | .subn => .done () ((m.withReg i.x (vy - vx)).withFlag (vx ≤ vy))
  | .shl => .done () ((m.withReg i.x (vx * 2)).withFlag (vx.toNat.testBit 7))
  | .sneReg => .done () (m.skipIf (vx != vy))
  | .ldI => .done () { m with index := i.nnn.val }
  | .jpV0 => .done () { m with pc := (m.reg Dimensions.jumpRegister).toNat + i.nnn.val }
  | .rnd => .done () (m.randomize i.x i.nn)
  | .drw => m.draw i.x i.y i.n.val
  | .skp => m.skipOnKey i.x true
  | .sknp => m.skipOnKey i.x false
  | .ldVxDt => m.readDelay i.x
  | .ldKey => .done () (m.awaitKey i.x)
  | .ldDtVx => .done () { m with timers := { m.timers with delay := vx.toNat } }
  | .ldStVx => .done () { m with timers := { m.timers with sound := vx.toNat } }
  | .addI => .done () { m with index := (m.index + vx.toNat) % 65536 }
  | .ldF => .done () { m with index := Dimensions.fontBase + vx.toNat * Dimensions.glyphHeight }
  | .bcd => m.storeDigits vx
  | .store => m.storeRegisters i.x
  | .load => m.loadRegisters i.x

omit [RandomSource σ] in
/-- The word at the program counter, if both its bytes are in memory. -/
def fetch? (m : Machine σ) : Option UInt16 :=
  if 0 ≤ m.pc ∧ m.pc ≤ 4094 then
    some (Instruction.wordOf (Memory.byteAt m.pc.toNat m.memory)
      (Memory.byteAt (m.pc.toNat + 1) m.memory))
  else none

/-- Fetch, decode and execute one instruction. -/
def step (m : Machine σ) : Attempt (Machine σ) Instruction :=
  match m.fetch? with
  | none => .fail (.fetchOutOfRange m.pc) m
  | some word =>
    let past := { m with pc := m.pc + Dimensions.instructionSize }
    match Instruction.ofWord? word with
    | none => .fail (.unimplemented word.toNat (some m.pc)) past
    | some i =>
      (execute i past).andThen fun _ m =>
        .done i { m with instructionCount := m.instructionCount + 1 }

/-! ### Runs -/

/-- Execute some instructions, up to the first fault. -/
def steps : Nat → Machine σ → Attempt (Machine σ) Unit
  | 0, m => .done () m
  | k + 1, m => m.step.andThen fun _ m => steps k m

/-- Execute some instructions and tell how many there were; a count below zero
is none. -/
def run (count : Int) (m : Machine σ) : Attempt (Machine σ) Int :=
  (m.steps count.toNat).andThen fun _ m => .done (max count 0) m

/-- A run is as good as its two parts one after the other. -/
theorem steps_add : ∀ (a b : Nat) (m : Machine σ),
    m.steps (a + b) = (m.steps a).andThen fun _ m => m.steps b
  | 0, b, m => by simp [steps]
  | a + 1, b, m => by
    rw [Nat.succ_add, steps, steps]
    rcases m.step with ⟨_ | i, m'⟩
    · rfl
    · simp [Attempt.andThen, steps_add a b m']

theorem run_of_nonpositive {count : Int} (h : count ≤ 0) (m : Machine σ) :
    m.run count = .done 0 m := by
  have e : count.toNat = 0 := by omega
  simp [run, e, steps, show max count 0 = 0 by omega]

end Machine

end ChipEight
