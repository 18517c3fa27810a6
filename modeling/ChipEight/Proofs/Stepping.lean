/-
# What one step does

Fetching and decoding once and for all, so that no later proof opens `step`: a
step faults at the fetch, or at a word that fits no pattern, or it executes
the instruction that lies at the program counter (`Next`) on the machine whose
counter is past it (`past`).

An instruction either meets a fault before it has done anything (`refusal?`)
or is executed in full. That is so for well-formed machines, whose timers are
bytes and whose modulus is whole.

Key definitions: `Machine.WordAt`, `Machine.Next`, `Machine.past`,
`Machine.WellFormed`, `Machine.refusal?`.
Key theorems: `Machine.step_of_next`, `Machine.execute_of_refusal?`,
`Machine.execute_of_not_refused`, `Machine.step_cases`.
-/
import ChipEight.Machine.Step
import ChipEight.Proofs.Encoding

namespace ChipEight

/-- The address that is reported is the start of the span if that is outside
memory, and its last address otherwise. -/
theorem Span.outside?_eq_some_iff {start a : Int} {length : Nat} :
    outside? start length = some a ↔ 0 < length ∧ ¬(0 ≤ start ∧ start + length ≤ 4096) ∧
      a = if 0 ≤ start ∧ start < 4096 then start + length - 1 else start := by
  unfold outside?
  simp only
  split_ifs <;> simp only [Option.some.injEq, false_iff] <;> omega

/-- How many bytes of memory an instruction reads or writes as data. -/
def Instruction.span? (i : Instruction) : Option Nat :=
  match i.opcode with
  | .drw => some i.n.val
  | .bcd => some 3
  | .store | .load => some (i.x.val + 1)
  | _ => none

namespace Machine

variable {σ : Type}

/-! ### Fetching -/

/-- The word whose bytes lie at the program counter, the high one first. -/
def WordAt (m : Machine σ) (w : UInt16) : Prop :=
  (0 ≤ m.pc ∧ m.pc ≤ 4094) ∧ w.toNat = 256 * (Memory.byteAt m.pc.toNat m.memory).toNat
    + (Memory.byteAt (m.pc.toNat + 1) m.memory).toNat

theorem fetch?_eq_none_iff {m : Machine σ} : m.fetch? = none ↔ ¬(0 ≤ m.pc ∧ m.pc ≤ 4094) := by
  unfold fetch?
  split_ifs with h <;> simp [h]

theorem fetch?_eq_some_iff {m : Machine σ} {w : UInt16} : m.fetch? = some w ↔ m.WordAt w := by
  have hh := (Memory.byteAt m.pc.toNat m.memory).toNat_lt
  have hl := (Memory.byteAt (m.pc.toNat + 1) m.memory).toNat_lt
  unfold fetch? WordAt
  split_ifs with h
  · simp only [h, and_self, true_and, Option.some.injEq, ← UInt16.toNat_inj,
      Instruction.wordOf, UInt16.toNat_ofNat']
    omega
  · simp [h]

/-- An instruction lies at the program counter. -/
def Next (m : Machine σ) (i : Instruction) : Prop :=
  m.WordAt i.word ∧ i.opcode.pattern.Fits i.word

/-- There is no more than one. -/
theorem Next.unique {m : Machine σ} {i j : Instruction} (hi : m.Next i) (hj : m.Next j) : i = j := by
  obtain ⟨w, op⟩ := i
  obtain ⟨v, oq⟩ := j
  obtain rfl : w = v := UInt16.toNat_inj.1 (hi.1.2.trans hj.1.2.symm)
  have h := Opcode.find?_of_fits hi.2
  rw [Opcode.find?_of_fits hj.2] at h
  obtain rfl := Option.some.inj h
  rfl

/-- The machine with the program counter past the word. -/
def past (m : Machine σ) : Machine σ := { m with pc := m.pc + Dimensions.instructionSize }

/-- The machine with one more instruction counted. -/
def counted (m : Machine σ) : Machine σ := { m with instructionCount := m.instructionCount + 1 }

theorem reg_past (m : Machine σ) (r : Fin 16) : m.past.reg r = m.reg r := rfl

theorem reg_counted (m : Machine σ) (r : Fin 16) : m.counted.reg r = m.reg r := rfl

/-! ### Well-formed machines -/

/-- A machine whose timers are bytes and whose modulus is whole. The sizes of
memory, registers, stack, display and keypad are in their types. -/
structure WellFormed (m : Machine σ) : Prop where
  delay : 0 ≤ m.timers.delay ∧ m.timers.delay ≤ 255
  sound : 0 ≤ m.timers.sound ∧ m.timers.sound ≤ 255
  modulus : m.config.onesModulus = .ten ∨ m.config.onesModulus = .hundred

theorem WellFormed.past {m : Machine σ} (h : m.WellFormed) : m.past.WellFormed :=
  ⟨h.delay, h.sound, h.modulus⟩

theorem WellFormed.whole?_eq {m : Machine σ} (h : m.WellFormed) :
    m.config.onesModulus.whole? = some m.config.onesModulus.value := by
  rcases h.modulus with e | e
  · rw [e]
    rfl
  · rw [e]
    rfl

/-! ### Refusals -/

/-- The fault that an instruction meets before it does anything. -/
def refusal? (i : Instruction) (m : Machine σ) : Option Fault :=
  match i.opcode with
  | .call => if m.sp.val = 16 then some .stackOverflow else none
  | .ret => if m.sp.val = 0 then some .stackUnderflow else none
  | .skp | .sknp =>
    if 15 < (m.reg i.x).toNat then some (.keyOutOfRange (m.reg i.x).toNat) else none
  | _ => (i.span?.bind fun length => Span.outside? m.index length).map .memoryAccess

theorem refusal?_of_full {m : Machine σ} {i : Instruction} (op : i.opcode = .call)
    (full : m.sp.val = 16) : refusal? i m = some .stackOverflow := by
  simp only [refusal?, op, full, if_true]

theorem refusal?_of_empty {m : Machine σ} {i : Instruction} (op : i.opcode = .ret)
    (empty : m.sp.val = 0) : refusal? i m = some .stackUnderflow := by
  simp only [refusal?, op, empty, if_true]

/-- The data of an instruction are refused if they are not all in memory. -/
theorem refusal?_of_outside {m : Machine σ} {i : Instruction} {length : Nat}
    (span : i.span? = some length) (nonempty : 0 < length)
    (outside : ¬(0 ≤ m.index ∧ m.index + length ≤ 4096)) :
    refusal? i m = some (.memoryAccess
      (if 0 ≤ m.index ∧ m.index < 4096 then m.index + length - 1 else m.index)) := by
  have ha := Span.outside?_eq_some_iff.2 ⟨nonempty, outside, rfl⟩
  cases e : i.opcode
  case drw | bcd | store | load =>
    simp only [refusal?, e, span, Option.bind_some, ha, Option.map_some]
  all_goals simp [Instruction.span?, e] at span

theorem refusal?_of_no_key {m : Machine σ} {i : Instruction}
    (op : i.opcode = .skp ∨ i.opcode = .sknp) (noKey : 15 < (m.reg i.x).toNat) :
    refusal? i m = some (.keyOutOfRange (m.reg i.x).toNat) := by
  rcases op with op | op
  · simp only [refusal?, op, noKey, if_true]
  · simp only [refusal?, op, noKey, if_true]

theorem withSpan_of_outside {m : Machine σ} {length : Nat} {a : Int}
    (h : Span.outside? m.index length = some a) (next : Attempt (Machine σ) Unit) :
    m.withSpan length next = .fail (.memoryAccess a) m := by
  rw [withSpan, h]

theorem withSpan_of_inside {m : Machine σ} {length : Nat}
    (h : Span.outside? m.index length = none) (next : Attempt (Machine σ) Unit) :
    m.withSpan length next = next := by
  rw [withSpan, h]

theorem skipOnKey_of_key {m : Machine σ} {x : Fin 16} (h : (m.reg x).toNat < 16) (pressed : Bool) :
    m.skipOnKey x pressed =
      .done () (m.skipIf (m.keypad.isPressed ⟨(m.reg x).toNat, h⟩ == pressed)) := by
  have e : Key.ofInt (m.reg x).toNat = .ok ⟨(m.reg x).toNat, h⟩ := by rw [Key.ofInt_eq_ok_iff]
  unfold skipOnKey
  rw [e]

theorem skipOnKey_of_no_key {m : Machine σ} {x : Fin 16} (h : 15 < (m.reg x).toNat)
    (pressed : Bool) : m.skipOnKey x pressed = .fail (.keyOutOfRange (m.reg x).toNat) m := by
  have short := Numeral.short_of_byte _ (m.reg x).toNat_lt
  have e : Key.ofInt (m.reg x).toNat = .error (.keyOutOfRange (m.reg x).toNat) :=
    Key.ofInt_eq_error_iff.2 ⟨by omega, (Key.refused_of_short short).symm⟩
  unfold skipOnKey
  rw [e]

theorem readDelay_of_byte {m : Machine σ} (h : 0 ≤ m.timers.delay ∧ m.timers.delay ≤ 255)
    (x : Fin 16) : m.readDelay x = .done () (m.withReg x (UInt8.ofInt m.timers.delay)) :=
  if_pos h

variable [RandomSource σ]

/-- A refused instruction changes nothing. -/
theorem execute_of_refusal? {i : Instruction} {m : Machine σ} {f : Fault}
    (h : refusal? i m = some f) : execute i m = .fail f m := by
  cases e : i.opcode
  case call =>
    simp only [refusal?, e, Option.ite_none_right_eq_some, Option.some.injEq] at h
    simp [execute, e, call, h.1, ← h.2]
  case ret =>
    simp only [refusal?, e, Option.ite_none_right_eq_some, Option.some.injEq] at h
    simp [execute, e, ret, h.1, ← h.2]
  case skp | sknp =>
    simp only [refusal?, e, Option.ite_none_right_eq_some, Option.some.injEq] at h
    simp only [execute, e, skipOnKey_of_no_key h.1, h.2]
  case drw | bcd | store | load =>
    simp only [refusal?, e, Instruction.span?, Option.bind_some, Option.map_eq_some_iff] at h
    obtain ⟨a, ha, rfl⟩ := h
    simp only [execute, e, draw, storeDigits, storeRegisters, loadRegisters, withSpan_of_outside ha]
  all_goals simp [refusal?, e, Instruction.span?] at h

/-- An instruction that is not refused is executed to its end. -/
theorem execute_of_not_refused {i : Instruction} {m : Machine σ} (wf : m.WellFormed)
    (h : refusal? i m = none) : execute i m = .done () (execute i m).2 := by
  suffices ∃ m', execute i m = .done () m' by
    obtain ⟨m', h'⟩ := this
    rw [h']
  cases e : i.opcode
  case call =>
    simp only [refusal?, e, ite_eq_right_iff, reduceCtorEq, imp_false] at h
    have room : m.sp.val < 16 := by omega
    exact ⟨_, by simp only [execute, e, call, room, ↓reduceDIte]; rfl⟩
  case ret =>
    simp only [refusal?, e, ite_eq_right_iff, reduceCtorEq, imp_false] at h
    exact ⟨_, by simp only [execute, e, ret, h, ↓reduceDIte]; rfl⟩
  case skp | sknp =>
    simp only [refusal?, e, ite_eq_right_iff, reduceCtorEq, imp_false] at h
    have key : (m.reg i.x).toNat < 16 := by omega
    exact ⟨_, by simp only [execute, e, skipOnKey_of_key key]; rfl⟩
  case drw | store | load =>
    simp only [refusal?, e, Instruction.span?, Option.bind_some, Option.map_eq_none_iff] at h
    exact ⟨_, by simp only [execute, e, draw, storeRegisters, loadRegisters, withSpan_of_inside h]; rfl⟩
  case bcd =>
    simp only [refusal?, e, Instruction.span?, Option.bind_some, Option.map_eq_none_iff] at h
    exact ⟨_, by simp only [execute, e, storeDigits, withSpan_of_inside h, wf.whole?_eq]; rfl⟩
  case ldVxDt =>
    exact ⟨_, by simp only [execute, e, readDelay_of_byte wf.delay]; rfl⟩
  all_goals exact ⟨_, by simp only [execute, e]; rfl⟩

/-! ### Steps -/

omit [RandomSource σ] in
/-- What an instruction is refused for does not hang on the program counter. -/
theorem refusal?_past (i : Instruction) (m : Machine σ) :
    refusal? i m.past = refusal? i m := rfl

omit [RandomSource σ] in
/-- What the fetch finds: nothing, a word of no opcode, or an instruction. -/
theorem fetch_cases (m : Machine σ) :
    ¬(0 ≤ m.pc ∧ m.pc ≤ 4094) ∨ (∃ w, m.WordAt w ∧ ∀ op : Opcode, ¬op.pattern.Fits w) ∨
      ∃ i, m.Next i := by
  cases hw : m.fetch? with
  | none => exact .inl (fetch?_eq_none_iff.1 hw)
  | some w =>
    have hw := fetch?_eq_some_iff.1 hw
    cases ho : Opcode.find? w.toNat with
    | none => exact .inr (.inl ⟨w, hw, Opcode.find?_eq_none_iff.1 ho⟩)
    | some op => exact .inr (.inr ⟨⟨w, op⟩, hw, Opcode.find?_eq_some_iff.1 ho⟩)

theorem step_of_fetch_outside {m : Machine σ} (h : ¬(0 ≤ m.pc ∧ m.pc ≤ 4094)) :
    m.step = .fail (.fetchOutOfRange m.pc) m := by
  rw [step, fetch?_eq_none_iff.2 h]

theorem step_of_no_opcode {m : Machine σ} {w : UInt16} (hw : m.WordAt w)
    (h : ∀ op : Opcode, ¬op.pattern.Fits w) :
    m.step = .fail (.unimplemented w.toNat (some m.pc)) m.past := by
  have e : Instruction.ofWord? w = none := by
    rw [Instruction.ofWord?, Opcode.find?_eq_none_iff.2 h, Option.map_none]
  simp only [step, fetch?_eq_some_iff.2 hw, e]
  rfl

/-- A step executes the instruction at the program counter and counts it. -/
theorem step_of_next {m : Machine σ} {i : Instruction} (h : m.Next i) :
    m.step = (execute i m.past).andThen fun _ m => .done i m.counted := by
  have e : Instruction.ofWord? i.word = some i :=
    Instruction.ofWord?_eq_some_iff.2 ⟨rfl, Opcode.find?_of_fits h.2⟩
  simp only [step, fetch?_eq_some_iff.2 h.1, e]
  rfl

theorem step_of_refused {m : Machine σ} {i : Instruction} {f : Fault} (h : m.Next i)
    (hf : refusal? i m = some f) : m.step = .fail f m.past := by
  rw [step_of_next h, execute_of_refusal? ((refusal?_past i m).trans hf), Attempt.andThen_fail]

theorem step_of_not_refused {m : Machine σ} {i : Instruction} (wf : m.WellFormed) (h : m.Next i)
    (hf : refusal? i m = none) : m.step = .done i (execute i m.past).2.counted := by
  rw [step_of_next h, execute_of_not_refused wf.past ((refusal?_past i m).trans hf),
    Attempt.andThen_done]

theorem step_eq_done {m : Machine σ} {i : Instruction} (h : m.step.1 = .ok i) :
    m.step = .done i m.step.2 := Prod.ext h rfl

/-- What is behind a step that is done. -/
theorem of_step_done {m m' : Machine σ} {i : Instruction} (h : m.step = .done i m') :
    m.Next i ∧ refusal? i m = none ∧ m' = (execute i m.past).2.counted := by
  rcases m.fetch_cases with ho | ⟨w, hw, ho⟩ | ⟨j, hn⟩
  · simp [step_of_fetch_outside ho] at h
  · simp [step_of_no_opcode hw ho] at h
  · cases hf : refusal? j m with
    | some f => simp [step_of_refused hn hf] at h
    | none =>
      rw [step_of_next hn] at h
      obtain ⟨⟨⟩, m'', executed, e⟩ := Attempt.andThen_eq_done_iff.1 h
      simp only [Prod.mk.injEq, Except.ok.injEq] at e
      obtain ⟨rfl, rfl⟩ := e
      exact ⟨hn, hf, by rw [executed]⟩

/-- **All that a step can do.** -/
theorem step_cases {m : Machine σ} (wf : m.WellFormed) :
    (¬(0 ≤ m.pc ∧ m.pc ≤ 4094) ∧ m.step = .fail (.fetchOutOfRange m.pc) m) ∨
    (∃ w, m.WordAt w ∧ (∀ op : Opcode, ¬op.pattern.Fits w) ∧
      m.step = .fail (.unimplemented w.toNat (some m.pc)) m.past) ∨
    (∃ i f, m.Next i ∧ refusal? i m = some f ∧ m.step = .fail f m.past) ∨
    (∃ i, m.Next i ∧ refusal? i m = none ∧ m.step = .done i (execute i m.past).2.counted) := by
  rcases m.fetch_cases with h | ⟨w, hw, h⟩ | ⟨i, h⟩
  · exact .inl ⟨h, step_of_fetch_outside h⟩
  · exact .inr (.inl ⟨w, hw, h, step_of_no_opcode hw h⟩)
  · cases hf : refusal? i m with
    | some f => exact .inr (.inr (.inl ⟨i, f, h, hf, step_of_refused h hf⟩))
    | none => exact .inr (.inr (.inr ⟨i, h, hf, step_of_not_refused wf h hf⟩))

end Machine

end ChipEight
