/-
# The read set of an instruction

The cells that an instruction looks at. Two machines that agree in them, and
yield the same random byte if one is drawn, execute the instruction alike: both
do it or both meet the same fault, and wherever the machines agreed before they
agree afterwards. A step looks at the program counter and at the word there as
well.

The two machines may have sources of different kinds; in the source they agree
if it yields the same bytes, and in the configuration if it has the same
modulus, as that is all that a machine looks at there.

Key definitions: `Machine.AgreeAt`, `Machine.EndAlike`, `Instruction.Reads`,
`Machine.StepReads`.
Key theorems: `Machine.execute_of_agree`, `Machine.step_of_agree`,
`Machine.onKeypad_of_agree`.
-/
import ChipEight.Proofs.Stepping
import ChipEight.Proofs.WriteSet

namespace ChipEight

/-- A slice is told by the bytes in it. -/
theorem Memory.slice_congr {start length : Nat} {m n : Memory}
    (same : ∀ a : Fin 4096, start ≤ a.val → a.val < start + length → n.get a = m.get a) :
    slice start length n = slice start length m := by
  apply List.ext_getElem?
  intro k
  simp only [slice, List.getElem?_take, List.getElem?_drop, Vector.getElem?_toList]
  split_ifs with hk
  · by_cases ha : start + k < 4096
    · rw [Vector.getElem?_eq_getElem ha, Vector.getElem?_eq_getElem ha]
      have e : n[start + k] = m[start + k] :=
        same ⟨start + k, ha⟩ (Nat.le_add_right start k) (Nat.add_lt_add_left hk start)
      rw [e]
    · rw [Vector.getElem?_eq_none (by omega), Vector.getElem?_eq_none (by omega)]
  · rfl

theorem Memory.byteAt_eq {a : Nat} (h : a < 4096) (m : Memory) : byteAt a m = m[a] := by
  rw [byteAt, Vector.getElem?_eq_getElem h, Option.getD_some]

namespace Machine

variable {σ τ : Type} [RandomSource σ] [RandomSource τ]

/-! ### Agreement -/

/-- The second machine has in a cell what the first has. -/
def AgreeAt (m : Machine σ) (n : Machine τ) : Cell → Prop
  | .memory a => n.memory.get a = m.memory.get a
  | .register r => n.reg r = m.reg r
  | .slot k => n.stack.get k = m.stack.get k
  | .sp => n.sp = m.sp
  | .pc => n.pc = m.pc
  | .index => n.index = m.index
  | .display => n.display = m.display
  | .keypad => n.keypad = m.keypad
  | .delay => n.timers.delay = m.timers.delay
  | .sound => n.timers.sound = m.timers.sound
  | .random => RandomSource.SameBytes m.random n.random
  | .count => n.instructionCount = m.instructionCount
  | .config => n.config.onesModulus = m.config.onesModulus

variable {m m' : Machine σ} {n n' : Machine τ} {c : Cell}

theorem AgreeAt.refl (m : Machine σ) (c : Cell) : m.AgreeAt m c := by
  cases c
  case random => exact fun _ => rfl
  all_goals rfl

theorem AgreeAt.trans {υ : Type} [RandomSource υ] {l : Machine υ} (h : AgreeAt m n c)
    (h' : AgreeAt n l c) : AgreeAt m l c := by
  cases c
  case random => exact fun k => (h' k).trans (h k)
  all_goals exact Eq.trans h' h

/-- Where neither machine changes, they stay in agreement. -/
theorem AgreeAt.of_sameAt (h : AgreeAt m n c) (hm : m.SameAt m' c) (hn : n.SameAt n' c) :
    AgreeAt m' n' c := by
  cases c
  case random =>
    have hm : m'.random = m.random := hm
    have hn : n'.random = n.random := hn
    rw [AgreeAt, hm, hn]
    exact h
  case config =>
    have hm : m'.config = m.config := hm
    have hn : n'.config = n.config := hn
    rw [AgreeAt, hm, hn]
    exact h
  all_goals exact (Eq.trans hn h).trans (Eq.symm hm)

/-- Two attempts end alike: with the same outcome, and in agreement wherever
the machines agreed before. -/
def EndAlike {α : Type} (m : Machine σ) (n : Machine τ) (x : Attempt (Machine σ) α)
    (y : Attempt (Machine τ) α) : Prop :=
  y.1 = x.1 ∧ ∀ c, AgreeAt m n c → AgreeAt x.2 y.2 c

theorem EndAlike.done {α : Type} (a : α) (h : ∀ c, AgreeAt m n c → AgreeAt m' n' c) :
    EndAlike m n (.done a m') (.done a n') := ⟨rfl, h⟩

theorem EndAlike.fail {α : Type} (f : Fault) :
    EndAlike (α := α) m n (.fail f m) (.fail f n) := ⟨rfl, fun _ h => h⟩

theorem EndAlike.andThen {α β : Type} {x : Attempt (Machine σ) α} {y : Attempt (Machine τ) α}
    {f : α → Machine σ → Attempt (Machine σ) β} {g : α → Machine τ → Attempt (Machine τ) β}
    (h : EndAlike m n x y) (next : ∀ a m' n', EndAlike m' n' (f a m') (g a n')) :
    EndAlike m n (x.andThen f) (y.andThen g) := by
  obtain ⟨r, m'⟩ := x
  obtain ⟨r', n'⟩ := y
  obtain ⟨outcome, after⟩ := h
  obtain rfl : r' = r := outcome
  cases r' with
  | error fault => exact ⟨rfl, after⟩
  | ok a =>
    obtain ⟨outcome', after'⟩ := next a m' n'
    exact ⟨outcome', fun c h => after' c (after c h)⟩

/-! ### Changes made to both machines -/

theorem AgreeAt.withReg (h : AgreeAt m n c) (r : Fin 16) (v : UInt8) :
    AgreeAt (m.withReg r v) (n.withReg r v) c := by
  cases c
  case register s =>
    simp only [AgreeAt, reg, Machine.withReg, Fin.getElem_fin, Vector.getElem_set] at h ⊢
    split_ifs
    · rfl
    · exact h
  all_goals exact h

theorem AgreeAt.withFlag (h : AgreeAt m n c) (flag : Bool) :
    AgreeAt (m.withFlag flag) (n.withFlag flag) c := h.withReg _ _

theorem AgreeAt.withRegisters (h : AgreeAt m n c) {v w : Vector UInt8 16}
    (same : ∀ r : Fin 16, c = .register r → w.get r = v.get r) :
    AgreeAt { m with registers := v } { n with registers := w } c := by
  cases c
  case register r => exact same r rfl
  all_goals exact h

theorem AgreeAt.withPc (h : AgreeAt m n c) (p : Int) :
    AgreeAt { m with pc := p } { n with pc := p } c := by
  cases c
  case pc => rfl
  all_goals exact h

theorem AgreeAt.withIndex (h : AgreeAt m n c) (v : Int) :
    AgreeAt { m with index := v } { n with index := v } c := by
  cases c
  case index => rfl
  all_goals exact h

theorem AgreeAt.withDisplay (h : AgreeAt m n c) (d : Grid 64 32) :
    AgreeAt { m with display := d } { n with display := d } c := by
  cases c
  case display => rfl
  all_goals exact h

theorem AgreeAt.withKeypad (h : AgreeAt m n c) (p : Keypad) :
    AgreeAt { m with keypad := p } { n with keypad := p } c := by
  cases c
  case keypad => rfl
  all_goals exact h

theorem AgreeAt.withDelay (h : AgreeAt m n c) (v : Int) :
    AgreeAt { m with timers := { m.timers with delay := v } }
      { n with timers := { n.timers with delay := v } } c := by
  cases c
  case delay => rfl
  all_goals exact h

theorem AgreeAt.withSound (h : AgreeAt m n c) (v : Int) :
    AgreeAt { m with timers := { m.timers with sound := v } }
      { n with timers := { n.timers with sound := v } } c := by
  cases c
  case sound => rfl
  all_goals exact h

theorem AgreeAt.overlay (h : AgreeAt m n c) (start : Nat) (bytes : List UInt8) :
    AgreeAt { m with memory := Memory.overlay start bytes m.memory }
      { n with memory := Memory.overlay start bytes n.memory } c := by
  cases c
  case memory a =>
    have h : n.memory[a.val] = m.memory[a.val] := h
    show (Memory.overlay start bytes n.memory)[a.val] = (Memory.overlay start bytes m.memory)[a.val]
    rw [Memory.getElem_overlay, Memory.getElem_overlay, h]
  all_goals exact h

theorem AgreeAt.write (h : AgreeAt m n c) (index : n.index = m.index) (bytes : List UInt8) :
    AgreeAt (m.write bytes) (n.write bytes) c := by
  have start : n.index.toNat = m.index.toNat := congrArg Int.toNat index
  rw [Machine.write, Machine.write, start]
  exact h.overlay _ bytes

theorem AgreeAt.past (h : AgreeAt m n c) : AgreeAt m.past n.past c := by
  cases c
  case pc => exact congrArg (· + 2) h
  all_goals exact h

theorem AgreeAt.counted (h : AgreeAt m n c) : AgreeAt m.counted n.counted c := by
  cases c
  case count => exact congrArg (· + 1) h
  all_goals exact h

theorem AgreeAt.skipIf (h : AgreeAt m n c) (condition : Bool) :
    AgreeAt (m.skipIf condition) (n.skipIf condition) c := by
  unfold Machine.skipIf
  split_ifs
  · exact h.past
  · exact h

/-! ### Parts of instructions -/

theorem EndAlike.withSpan {length : Nat} {x : Attempt (Machine σ) Unit}
    {y : Attempt (Machine τ) Unit} (index : n.index = m.index)
    (inside : length = 0 ∨ (0 ≤ m.index ∧ m.index + length ≤ 4096) → EndAlike m n x y) :
    EndAlike m n (m.withSpan length x) (n.withSpan length y) := by
  unfold Machine.withSpan
  rw [index]
  cases e : Span.outside? m.index length with
  | some a => exact .fail _
  | none => exact inside (Span.outside?_eq_none_iff.1 e)

theorem call_of_agree (sp : n.sp = m.sp) (pc : n.pc = m.pc) (target : Int) :
    EndAlike m n (m.call target) (n.call target) := by
  by_cases room : m.sp.val < 16
  · rw [call_of_room ⟨m.sp.val, room⟩ rfl, call_of_room ⟨m.sp.val, room⟩ (congrArg Fin.val sp)]
    refine .done () fun c h => ?_
    cases c
    case slot k =>
      have h : n.stack[k.val] = m.stack[k.val] := h
      show (n.stack.set m.sp.val n.pc)[k.val] = (m.stack.set m.sp.val m.pc)[k.val]
      rw [Vector.getElem_set, Vector.getElem_set, pc, h]
    case sp | pc => rfl
    all_goals exact h
  · have full : m.sp.val = 16 := by have := m.sp.isLt; omega
    rw [call_of_full full, call_of_full (sp ▸ full)]
    exact .fail _

theorem ret_of_agree (sp : n.sp = m.sp)
    (last : ∀ k : Fin 16, k.val + 1 = m.sp.val → n.stack.get k = m.stack.get k) :
    EndAlike m n m.ret n.ret := by
  by_cases empty : m.sp.val = 0
  · rw [ret_of_empty empty, ret_of_empty (sp ▸ empty)]
    exact .fail _
  · obtain ⟨top, ht⟩ := exists_top empty
    rw [ret_of_live ht, ret_of_live (sp ▸ ht), last top ht.symm]
    refine .done () fun c h => ?_
    cases c
    case pc | sp => rfl
    all_goals exact h

omit [RandomSource σ] [RandomSource τ] in
theorem read_of_agree {length : Nat} (index : n.index = m.index)
    (inside : length = 0 ∨ (0 ≤ m.index ∧ m.index + length ≤ 4096))
    (sprite : ∀ a : Fin 4096, m.index ≤ a.val ∧ (a.val : Int) < m.index + length →
      n.memory[a] = m.memory[a]) : n.read length = m.read length := by
  rw [read, read, index]
  exact Memory.slice_congr fun a hl hu => sprite a (by omega)

theorem draw_of_agree {x y : Fin 16} {height : Nat} (hx : n.reg x = m.reg x)
    (hy : n.reg y = m.reg y) (index : n.index = m.index) (display : n.display = m.display)
    (sprite : ∀ a : Fin 4096, m.index ≤ a.val ∧ (a.val : Int) < m.index + height →
      n.memory[a] = m.memory[a]) :
    EndAlike m n (m.draw x y height) (n.draw x y height) := by
  refine .withSpan index fun inside => ?_
  rw [hx, hy, display, read_of_agree index inside sprite]
  exact .done () fun c h => (h.withDisplay _).withFlag _

theorem storeDigits_of_agree (index : n.index = m.index)
    (modulus : n.config.onesModulus = m.config.onesModulus) (v : UInt8) :
    EndAlike m n (m.storeDigits v) (n.storeDigits v) := by
  refine .withSpan index fun _ => ?_
  rw [modulus]
  cases m.config.onesModulus.whole? with
  | some modulus => exact .done () fun c h => h.write index _
  | none => exact ⟨rfl, fun c h => h.write index _⟩

theorem storeRegisters_of_agree {x : Fin 16} (index : n.index = m.index)
    (registers : ∀ r ≤ x, n.reg r = m.reg r) :
    EndAlike m n (m.storeRegisters x) (n.storeRegisters x) := by
  have bytes : n.registers.toList.take (x.val + 1) = m.registers.toList.take (x.val + 1) := by
    apply List.ext_getElem
    · rw [List.length_take, List.length_take, Vector.length_toList, Vector.length_toList]
    · intro r hr _
      rw [List.length_take, Vector.length_toList] at hr
      rw [List.getElem_take, List.getElem_take, Vector.getElem_toList, Vector.getElem_toList]
      exact registers ⟨r, by omega⟩ (Fin.le_def.2 (by simp only; omega))
  refine .withSpan index fun _ => ?_
  rw [bytes]
  exact .done () fun c h => h.write index _

theorem loadRegisters_of_agree {x : Fin 16} (index : n.index = m.index)
    (data : ∀ a : Fin 4096, m.index ≤ a.val ∧ (a.val : Int) ≤ m.index + x →
      n.memory[a] = m.memory[a]) :
    EndAlike m n (m.loadRegisters x) (n.loadRegisters x) := by
  refine .withSpan index fun inside => .done () fun c h => h.withRegisters fun r hc => ?_
  have h : n.reg r = m.reg r := by rwa [hc] at h
  show (Vector.ofFn _)[r.val] = (Vector.ofFn _)[r.val]
  rw [Vector.getElem_ofFn, Vector.getElem_ofFn]
  split_ifs with hr
  · have hr : r.val ≤ x.val := hr
    have ha : m.index.toNat + r.val < 4096 := by omega
    rw [index, Memory.byteAt_eq ha, Memory.byteAt_eq ha]
    exact data ⟨m.index.toNat + r.val, ha⟩ (by simp only; omega)
  · exact h

theorem awaitKey_of_agree (keypad : n.keypad = m.keypad) (x : Fin 16) (h : AgreeAt m n c) :
    AgreeAt (m.awaitKey x) (n.awaitKey x) c := by
  have first : n.keypad.firstPressed = m.keypad.firstPressed := congrArg _ keypad
  unfold awaitKey
  rw [first]
  cases m.keypad.firstPressed with
  | some key => exact h.withReg _ _
  | none =>
    cases c
    case pc => exact congrArg (· - 2) h
    all_goals exact h

theorem readDelay_of_agree (delay : n.timers.delay = m.timers.delay) (x : Fin 16) :
    EndAlike m n (m.readDelay x) (n.readDelay x) := by
  unfold readDelay
  rw [delay]
  split_ifs
  · exact .done () fun c h => h.withReg _ _
  · exact .fail _

theorem skipOnKey_of_agree {x : Fin 16} (hx : n.reg x = m.reg x) (keypad : n.keypad = m.keypad)
    (pressed : Bool) : EndAlike m n (m.skipOnKey x pressed) (n.skipOnKey x pressed) := by
  unfold skipOnKey
  rw [hx, keypad]
  cases Key.ofInt (m.reg x).toNat with
  | ok key => exact .done () fun c h => h.skipIf _
  | error fault => exact .fail _

/-- A draw takes the same byte off both sources. -/
theorem randomize_of_agree
    (byte : RandomSource.byte n.random 0 = RandomSource.byte m.random 0) (x : Fin 16)
    (mask : UInt8) (h : AgreeAt m n c) : AgreeAt (m.randomize x mask) (n.randomize x mask) c := by
  unfold randomize
  rw [RandomSource.nextByte_eq, RandomSource.nextByte_eq, byte]
  refine AgreeAt.withReg ?_ _ _
  cases c
  case random => exact RandomSource.SameBytes.after h 1
  all_goals exact h

end Machine

/-! ### Instructions -/

/-- The cells that an instruction looks at, for what it does or for whether it
does it. A random byte is none of them. -/
def Instruction.Reads {σ : Type} (i : Instruction) (m : Machine σ) (c : Cell) : Prop :=
  match i.opcode with
  | .nop | .cls | .jp | .ldImm | .ldI | .rnd => False
  | .ret => c = .sp ∨ ∃ k : Fin 16, k.val + 1 = m.sp.val ∧ c = .slot k
  | .call => c = .sp ∨ c = .pc
  | .jpV0 => c = .register Dimensions.jumpRegister
  | .seImm | .sneImm | .addImm | .shr | .shl | .ldDtVx | .ldStVx | .ldF => c = .register i.x
  | .seReg | .sneReg | .or | .and | .xor | .addReg | .subReg | .subn =>
    c = .register i.x ∨ c = .register i.y
  | .ldReg => c = .register i.y
  | .skp | .sknp => c = .register i.x ∨ c = .keypad
  | .ldKey => c = .keypad
  | .ldVxDt => c = .delay
  | .addI => c = .register i.x ∨ c = .index
  | .drw => c = .register i.x ∨ c = .register i.y ∨ c = .index ∨ c = .display ∨
    ∃ a : Fin 4096, (m.index ≤ a.val ∧ (a.val : Int) < m.index + i.n.val) ∧ c = .memory a
  | .bcd => c = .register i.x ∨ c = .index ∨ c = .config
  | .store => c = .index ∨ ∃ r ≤ i.x, c = .register r
  | .load => c = .index ∨
    ∃ a : Fin 4096, (m.index ≤ a.val ∧ (a.val : Int) ≤ m.index + i.x) ∧ c = .memory a

namespace Instruction

variable {σ : Type} {i : Instruction} {m : Machine σ}

theorem reads_delay_iff : i.Reads m .delay ↔ i.opcode = .ldVxDt := by
  cases e : i.opcode <;> simp [Reads, e]

theorem reads_keypad_iff :
    i.Reads m .keypad ↔ i.opcode = .skp ∨ i.opcode = .sknp ∨ i.opcode = .ldKey := by
  cases e : i.opcode <;> simp [Reads, e]

theorem reads_slot_iff {k : Fin 16} :
    i.Reads m (.slot k) ↔ i.opcode = .ret ∧ k.val + 1 = m.sp.val := by
  cases e : i.opcode <;> simp [Reads, e]

theorem not_reads_sound : ¬i.Reads m .sound := by
  cases e : i.opcode <;> simp [Reads, e]

theorem not_reads_count : ¬i.Reads m .count := by
  cases e : i.opcode <;> simp [Reads, e]

theorem not_reads_random : ¬i.Reads m .random := by
  cases e : i.opcode <;> simp [Reads, e]

end Instruction

namespace Machine

variable {σ τ : Type} [RandomSource σ] [RandomSource τ] {m : Machine σ} {n : Machine τ}
  {c : Cell} {i : Instruction}

/-- **An instruction looks at nothing outside its read set**, the random byte
apart that it draws. -/
theorem execute_of_agree (reads : ∀ c, i.Reads m c → AgreeAt m n c)
    (byte : i.opcode = .rnd → RandomSource.byte n.random 0 = RandomSource.byte m.random 0) :
    EndAlike m n (execute i m) (execute i n) := by
  cases e : i.opcode
  all_goals
    simp only [Instruction.Reads, e, forall_eq_or_imp, forall_eq, forall_exists_index, and_imp]
      at reads
    simp only [execute, e]
  case nop => exact .done () fun c h => h
  case cls =>
    rw [Grid.clear_eq_blank, Grid.clear_eq_blank]
    exact .done () fun c h => h.withDisplay _
  case ret => exact ret_of_agree reads.1 fun k hk => reads.2 _ k hk rfl
  case jp => exact .done () fun c h => h.withPc _
  case call => exact call_of_agree reads.1 reads.2 _
  case jpV0 =>
    have h0 : n.reg Dimensions.jumpRegister = m.reg Dimensions.jumpRegister := reads
    rw [h0]
    exact .done () fun c h => h.withPc _
  case seImm | sneImm =>
    have hx : n.reg i.x = m.reg i.x := reads
    rw [hx]
    exact .done () fun c h => h.skipIf _
  case seReg | sneReg =>
    have hx : n.reg i.x = m.reg i.x := reads.1
    have hy : n.reg i.y = m.reg i.y := reads.2
    rw [hx, hy]
    exact .done () fun c h => h.skipIf _
  case ldImm => exact .done () fun c h => h.withReg _ _
  case addImm =>
    have hx : n.reg i.x = m.reg i.x := reads
    rw [hx]
    exact .done () fun c h => h.withReg _ _
  case ldReg =>
    have hy : n.reg i.y = m.reg i.y := reads
    rw [hy]
    exact .done () fun c h => h.withReg _ _
  case or | and | xor =>
    have hx : n.reg i.x = m.reg i.x := reads.1
    have hy : n.reg i.y = m.reg i.y := reads.2
    rw [hx, hy]
    exact .done () fun c h => h.withReg _ _
  case addReg | subReg | subn =>
    have hx : n.reg i.x = m.reg i.x := reads.1
    have hy : n.reg i.y = m.reg i.y := reads.2
    rw [hx, hy]
    exact .done () fun c h => (h.withReg _ _).withFlag _
  case shr | shl =>
    have hx : n.reg i.x = m.reg i.x := reads
    rw [hx]
    exact .done () fun c h => (h.withReg _ _).withFlag _
  case ldI => exact .done () fun c h => h.withIndex _
  case rnd => exact .done () fun c h => randomize_of_agree (byte e) _ _ h
  case drw =>
    obtain ⟨hx, hy, index, display, sprite⟩ := reads
    exact draw_of_agree hx hy index display fun a ha => sprite _ a ha.1 ha.2 rfl
  case skp | sknp => exact skipOnKey_of_agree reads.1 reads.2 _
  case ldVxDt => exact readDelay_of_agree reads _
  case ldKey => exact .done () fun c h => awaitKey_of_agree reads _ h
  case ldDtVx =>
    have hx : n.reg i.x = m.reg i.x := reads
    rw [hx]
    exact .done () fun c h => h.withDelay _
  case ldStVx =>
    have hx : n.reg i.x = m.reg i.x := reads
    rw [hx]
    exact .done () fun c h => h.withSound _
  case addI =>
    have hx : n.reg i.x = m.reg i.x := reads.1
    have index : n.index = m.index := reads.2
    have sum : (n.index + (n.reg i.x).toNat) % 65536 = (m.index + (m.reg i.x).toNat) % 65536 := by
      rw [hx, index]
    rw [sum]
    exact .done () fun c h => h.withIndex _
  case ldF =>
    have hx : n.reg i.x = m.reg i.x := reads
    rw [hx]
    exact .done () fun c h => h.withIndex _
  case bcd =>
    obtain ⟨hx, index, modulus⟩ := reads
    have hx : n.reg i.x = m.reg i.x := hx
    rw [hx]
    exact storeDigits_of_agree index modulus _
  case store => exact storeRegisters_of_agree reads.1 fun r hr => reads.2 _ r hr rfl
  case load => exact loadRegisters_of_agree reads.1 fun a ha => reads.2 _ a ha.1 ha.2 rfl

/-! ### Steps -/

/-- The cells that a step looks at: the program counter, the word there, and
what the instruction looks at. -/
def StepReads (m : Machine σ) (c : Cell) : Prop :=
  c = .pc ∨ (∃ a : Fin 4096, (m.pc ≤ a.val ∧ (a.val : Int) ≤ m.pc + 1) ∧ c = .memory a) ∨
    ∃ i, m.Next i ∧ i.Reads m c

omit [RandomSource σ] in
/-- Of the cells that no program counter and no word is in, a step reads what
its instruction reads. -/
theorem not_stepReads (pc : c ≠ .pc) (memory : ∀ a, c ≠ .memory a)
    (instructions : ∀ i, m.Next i → ¬i.Reads m c) : ¬m.StepReads c := by
  rintro (rfl | ⟨a, -, rfl⟩ | ⟨i, here, read⟩)
  · exact pc rfl
  · exact memory a rfl
  · exact instructions i here read

omit [RandomSource σ] [RandomSource τ] in
theorem wordAt_of_agree {w : UInt16} (pc : n.pc = m.pc)
    (bytes : ∀ a : Fin 4096, m.pc ≤ a.val ∧ (a.val : Int) ≤ m.pc + 1 → n.memory[a] = m.memory[a])
    (h : m.WordAt w) : n.WordAt w := by
  obtain ⟨range, word⟩ := h
  have high : Memory.byteAt m.pc.toNat n.memory = Memory.byteAt m.pc.toNat m.memory := by
    have ha : m.pc.toNat < 4096 := by omega
    rw [Memory.byteAt_eq ha, Memory.byteAt_eq ha]
    exact bytes ⟨m.pc.toNat, ha⟩ (by simp only; omega)
  have low : Memory.byteAt (m.pc.toNat + 1) n.memory = Memory.byteAt (m.pc.toNat + 1) m.memory := by
    have ha : m.pc.toNat + 1 < 4096 := by omega
    rw [Memory.byteAt_eq ha, Memory.byteAt_eq ha]
    exact bytes ⟨m.pc.toNat + 1, ha⟩ (by simp only; omega)
  rw [WordAt, pc, high, low]
  exact ⟨range, word⟩

/-- **Two machines that agree in what a step looks at make the same step.** -/
theorem step_of_agree (reads : ∀ c, m.StepReads c → AgreeAt m n c)
    (byte : ∀ i, m.Next i → i.opcode = .rnd →
      RandomSource.byte n.random 0 = RandomSource.byte m.random 0) :
    EndAlike m n m.step n.step := by
  have pc : n.pc = m.pc := reads .pc (.inl rfl)
  have bytes (a : Fin 4096) (ha : m.pc ≤ a.val ∧ (a.val : Int) ≤ m.pc + 1) :
      n.memory[a] = m.memory[a] := reads (.memory a) (.inr (.inl ⟨a, ha, rfl⟩))
  rcases m.fetch_cases with outside | ⟨w, here, unfit⟩ | ⟨i, here⟩
  · rw [step_of_fetch_outside outside, step_of_fetch_outside (pc ▸ outside), pc]
    exact .fail _
  · rw [step_of_no_opcode here unfit, step_of_no_opcode (wordAt_of_agree pc bytes here) unfit, pc]
    exact ⟨rfl, fun c h => h.past⟩
  · have here' : n.Next i := ⟨wordAt_of_agree pc bytes here.1, here.2⟩
    have executed : EndAlike m.past n.past (execute i m.past) (execute i n.past) :=
      execute_of_agree (fun c hc => (reads c (.inr (.inr ⟨i, here, hc⟩))).past) (byte i here)
    rw [step_of_next here, step_of_next here']
    have counted : EndAlike m.past n.past ((execute i m.past).andThen fun _ m => .done i m.counted)
        ((execute i n.past).andThen fun _ m => .done i m.counted) :=
      executed.andThen fun _ _ _ => .done i fun c h => h.counted
    exact ⟨counted.1, fun c h => counted.2 c h.past⟩

/-! ### Keys -/

/-- Keys are set without a look at anything but the keypad. -/
theorem onKeypad_of_agree {α : Type} (keypad : n.keypad = m.keypad)
    (f : Keypad → Attempt Keypad α) : EndAlike m n (m.onKeypad f) (n.onKeypad f) := by
  unfold onKeypad
  rw [keypad]
  exact ⟨rfl, fun c h => h.withKeypad _⟩

end Machine

end ChipEight
