/-
# Where the bytes of memory come from

A byte of memory is what the last event that covers its address has put there.
Those events are few (`Machine.Covers`): an `FX33` and an `FX55` that are done,
and a load that is accepted. All others leave every byte alone, and so does
whatever faults; so a byte that nothing has covered is still the one from the
start, and the font stays as long as no digits and no registers are stored below
its end.

Key definitions: `Memory.placed`, `Machine.covering`, `Machine.Covers`.
Key theorems: `Machine.byte_perform`, `Machine.covering_eq_some_iff`,
`Machine.byte_after`, `Machine.last_writer_wins`.
-/
import ChipEight.Proofs.Bounds
import Mathlib.Data.List.Basic
import Mathlib.Data.List.Induction
import Mathlib.Data.List.Infix

namespace ChipEight

/-! ### Bytes in a row -/

namespace Memory

/-- The byte at an address if these bytes start where it says, and none beside
them. -/
def placed (start : Nat) (bytes : List UInt8) (a : Nat) : Option UInt8 :=
  if start ≤ a then bytes[a - start]? else none

theorem placed_eq_some_iff {start a : Nat} {bytes : List UInt8} {b : UInt8} :
    placed start bytes a = some b ↔ ∃ k, a = start + k ∧ bytes[k]? = some b := by
  unfold placed
  rw [Option.ite_none_right_eq_some]
  constructor
  · rintro ⟨above, byte⟩
    exact ⟨a - start, by omega, byte⟩
  · rintro ⟨k, rfl, byte⟩
    rw [Nat.add_sub_cancel_left]
    exact ⟨Nat.le_add_right start k, byte⟩

theorem placed_nil (start a : Nat) : placed start [] a = none := by
  unfold placed
  split_ifs
  · rfl
  · rfl

theorem get_overlay (start : Nat) (bytes : List UInt8) (m : Memory) (a : Fin 4096) :
    (overlay start bytes m).get a = (placed start bytes a.val).getD (m.get a) := by
  have written := getElem_overlay bytes start m a.val a.isLt
  unfold placed
  by_cases above : start ≤ a.val
  · rw [if_pos above] at written ⊢
    exact written
  · rw [if_neg above] at written ⊢
    exact written

/-- Registers up to `x` that start at an address lie as many bytes from it as their numbers. -/
theorem placed_registers_iff {start a : Nat} {registers : Vector UInt8 16} {x : Fin 16}
    {b : UInt8} :
    placed start (registers.toList.take (x.val + 1)) a = some b ↔
      ∃ r ≤ x, a = start + r.val ∧ b = registers.get r := by
  rw [placed_eq_some_iff]
  constructor
  · rintro ⟨k, place, byte⟩
    rw [List.getElem?_take, Option.ite_none_right_eq_some] at byte
    obtain ⟨upTo, byte⟩ := byte
    have small : k < 16 := by have := x.isLt; omega
    rw [Vector.getElem?_toList, Vector.getElem?_eq_getElem small] at byte
    exact ⟨⟨k, small⟩, Nat.le_of_lt_succ upTo, place, (Option.some.inj byte).symm⟩
  · rintro ⟨r, upTo, place, rfl⟩
    refine ⟨r.val, place, ?_⟩
    rw [List.getElem?_take, if_pos (Nat.lt_succ_of_le upTo), Vector.getElem?_toList,
      Vector.getElem?_eq_getElem r.isLt]
    rfl

end Memory

namespace Machine

variable {σ : Type} [RandomSource σ] {m m' : Machine σ} {e : Event} {i : Instruction}
  {a : Fin 4096} {b : UInt8}

/-! ### One event -/

/-- The byte that an event puts at an address, if it writes there. -/
def covering (a : Fin 4096) (m : Machine σ) (e : Event) : Option UInt8 :=
  Memory.placed (m.written e).1 (m.written e).2 a.val

theorem memory_perform (wf : m.WellFormed) (e : Event) :
    (e.perform m).2.memory = Memory.overlay (m.written e).1 (m.written e).2 m.memory := by
  apply Vector.toList_inj.1
  rw [toList_memory_perform wf, Memory.toList_overlay (written_inside wf e)]

/-- An event leaves a byte alone unless it covers it. -/
theorem byte_perform (wf : m.WellFormed) (e : Event) (a : Fin 4096) :
    (e.perform m).2.memory.get a = (m.covering a e).getD (m.memory.get a) := by
  rw [memory_perform wf e, Memory.get_overlay]
  rfl

/-- The events other than a reset that put a byte at an address. -/
inductive Covers (m : Machine σ) (a : Fin 4096) : Event → UInt8 → Prop
  /-- `FX33` puts the hundreds where the index register says. -/
  | hundreds {i : Instruction} {m' : Machine σ} (done : m.step = .done i m')
      (op : i.opcode = .bcd) (place : (a.val : Int) = m.index) :
      m.Covers a .step (m.reg i.x / 100)
  /-- The tens come next. -/
  | tens {i : Instruction} {m' : Machine σ} (done : m.step = .done i m')
      (op : i.opcode = .bcd) (place : (a.val : Int) = m.index + 1) :
      m.Covers a .step (m.reg i.x / 10 % 10)
  /-- What the modulus leaves comes last. -/
  | ones {i : Instruction} {m' : Machine σ} (done : m.step = .done i m')
      (op : i.opcode = .bcd) (place : (a.val : Int) = m.index + 2) :
      m.Covers a .step (UInt8.ofNat ((m.reg i.x).toNat % m.config.onesModulus.value))
  /-- `FX55` puts the registers up to its own there, one after the other. -/
  | register {i : Instruction} {m' : Machine σ} (done : m.step = .done i m')
      (op : i.opcode = .store) {r : Fin 16} (upTo : r ≤ i.x)
      (place : (a.val : Int) = m.index + r.val) : m.Covers a .step (m.reg r)
  /-- A program that fits is put where programs start. -/
  | program {bytes : List UInt8} {k : Nat} {b : UInt8} (fits : bytes.length ≤ 3584)
      (place : a.val = 512 + k) (byte : bytes[k]? = some b) : m.Covers a (.load bytes) b

/-! ### Which events cover an address -/

theorem covering_of_fail {f : Fault} (h : m.step = .fail f m') : m.covering a .step = none := by
  unfold covering
  rw [written_step_of_fail h]
  exact Memory.placed_nil 0 a.val

theorem covering_of_done (h : m.step = .done i m') :
    m.covering a .step = Memory.placed (i.written m).1 (i.written m).2 a.val := by
  unfold covering
  rw [written_step_of_done h]

theorem covering_of_bcd (done : m.step = .done i m') (op : i.opcode = .bcd) :
    m.covering a .step = some b ↔
      ((a.val : Int) = m.index ∧ b = m.reg i.x / 100) ∨
      ((a.val : Int) = m.index + 1 ∧ b = m.reg i.x / 10 % 10) ∨
      ((a.val : Int) = m.index + 2 ∧
        b = UInt8.ofNat ((m.reg i.x).toNat % m.config.onesModulus.value)) := by
  have inside := inside_of_not_refused (by rw [Instruction.span?, op]) (by decide)
    (of_step_done done).2.1
  rw [covering_of_done done, Memory.placed_eq_some_iff]
  simp only [Instruction.written, op]
  constructor
  · rintro ⟨k, place, byte⟩
    rcases k with _ | _ | _ | k
    · exact .inl ⟨by omega, (Option.some.inj byte).symm⟩
    · exact .inr (.inl ⟨by omega, (Option.some.inj byte).symm⟩)
    · exact .inr (.inr ⟨by omega, (Option.some.inj byte).symm⟩)
    · cases byte
  · rintro (⟨place, rfl⟩ | ⟨place, rfl⟩ | ⟨place, rfl⟩)
    · exact ⟨0, by omega, rfl⟩
    · exact ⟨1, by omega, rfl⟩
    · exact ⟨2, by omega, rfl⟩

theorem covering_of_store (done : m.step = .done i m') (op : i.opcode = .store) :
    m.covering a .step = some b ↔
      ∃ r ≤ i.x, (a.val : Int) = m.index + r.val ∧ b = m.reg r := by
  have inside := inside_of_not_refused (by rw [Instruction.span?, op]) (by omega)
    (of_step_done done).2.1
  rw [covering_of_done done]
  simp only [Instruction.written, op, Memory.placed_registers_iff]
  refine exists_congr fun r => and_congr_right fun _ => and_congr ?_ Iff.rfl
  omega

theorem covering_of_other (done : m.step = .done i m') (digits : i.opcode ≠ .bcd)
    (registers : i.opcode ≠ .store) : m.covering a .step = none := by
  have nothing : i.written m = (0, []) := by
    cases op : i.opcode
    case bcd => exact absurd op digits
    case store => exact absurd op registers
    all_goals simp [Instruction.written, op]
  rw [covering_of_done done, nothing]
  exact Memory.placed_nil 0 a.val

theorem covering_step_eq_some_iff : m.covering a .step = some b ↔ m.Covers a .step b := by
  constructor
  · intro h
    rcases stepped : m.step with ⟨f | i, m'⟩
    · rw [covering_of_fail stepped] at h
      cases h
    by_cases digits : i.opcode = .bcd
    · rcases (covering_of_bcd stepped digits).1 h with ⟨place, rfl⟩ | ⟨place, rfl⟩ | ⟨place, rfl⟩
      · exact .hundreds stepped digits place
      · exact .tens stepped digits place
      · exact .ones stepped digits place
    by_cases registers : i.opcode = .store
    · obtain ⟨r, upTo, place, rfl⟩ := (covering_of_store stepped registers).1 h
      exact .register stepped registers upTo place
    · rw [covering_of_other stepped digits registers] at h
      cases h
  · intro h
    cases h with
    | hundreds done op place => exact (covering_of_bcd done op).2 (.inl ⟨place, rfl⟩)
    | tens done op place => exact (covering_of_bcd done op).2 (.inr (.inl ⟨place, rfl⟩))
    | ones done op place => exact (covering_of_bcd done op).2 (.inr (.inr ⟨place, rfl⟩))
    | register done op upTo place => exact (covering_of_store done op).2 ⟨_, upTo, place, rfl⟩

theorem covering_load_eq_some_iff {bytes : List UInt8} :
    m.covering a (.load bytes) = some b ↔ m.Covers a (.load bytes) b := by
  by_cases fits : bytes.length ≤ 3584
  · have there : m.covering a (.load bytes) = Memory.placed 512 bytes a.val := by
      simp only [covering, written, fits, if_true]
    rw [there, Memory.placed_eq_some_iff]
    constructor
    · rintro ⟨k, place, byte⟩
      exact .program fits place byte
    · rintro ⟨⟩
      exact ⟨_, ‹_›, ‹_›⟩
  · have nothing : m.covering a (.load bytes) = none := by
      simp only [covering, written, fits, if_false, Memory.placed_nil]
    rw [nothing]
    constructor
    · intro h
      cases h
    · rintro ⟨⟩
      contradiction

/-- **The events that cover an address are those, with what they put there.** -/
theorem covering_eq_some_iff (ne : e ≠ .reset) : m.covering a e = some b ↔ m.Covers a e b := by
  cases e with
  | step => exact covering_step_eq_some_iff
  | load bytes => exact covering_load_eq_some_iff
  | reset => exact absurd rfl ne
  | setKey | releaseKeys | tick | setDelay | setSound =>
    unfold covering written
    rw [Memory.placed_nil]
    constructor
    · intro h
      cases h
    · intro h
      cases h

/-! ### Histories -/

theorem WellFormed.after (wf : m.WellFormed) (es : List Event) : (m.after es).WellFormed :=
  after_invariant (fun e _ h => h.perform e) es wf

/-- A byte is what the last event that covers it has put there. -/
theorem byte_after (wf : m.WellFormed) (es : List Event) (a : Fin 4096) :
    (m.after es).memory.get a =
      ((m.lastSet (covering a) es).map Prod.fst).getD (m.memory.get a) := by
  have byte := part_after (fun m : Machine σ => m.memory.get a) (fun b _ => b)
    (fun e _ h => WellFormed.perform h e) (fun e _ h => byte_perform h e a) es wf
  rw [byte]
  cases m.lastSet (covering a) es with
  | none => exact List.foldl_fixed es
  | some last => exact List.foldl_fixed last.2

/-- What covers an address of the font is an `FX33` or an `FX55` that is done
with the index register there. -/
theorem Covers.in_font (h : m.Covers a e b) (font : a.val < 80) :
    ∃ i m', e = .step ∧ m.step = .done i m' ∧ (i.opcode = .bcd ∨ i.opcode = .store) ∧
      m.index < 80 := by
  cases h with
  | hundreds done op place | tens done op place | ones done op place =>
    exact ⟨_, _, rfl, done, .inl op, by omega⟩
  | register done op upTo place => exact ⟨_, _, rfl, done, .inr op, by omega⟩
  | program fits place byte => omega

/-- The font stays where nothing is stored into it. -/
theorem font_after (wf : m.WellFormed) (es : List Event) (unreset : ∀ e ∈ es, e ≠ .reset)
    (above : ∀ pre i m', pre ++ [.step] <+: es → (m.after pre).step = .done i m' →
      i.opcode = .bcd ∨ i.opcode = .store → 80 ≤ (m.after pre).index)
    (font : a.val < 80) : (m.after es).memory.get a = m.memory.get a := by
  -- from the end, since what is asked of an event is asked of the machine before it
  induction es using List.reverseRecOn with
  | nil => rfl
  | append_singleton es e ih =>
    have before := ih (fun e' he => unreset e' (List.mem_append_left _ he))
      fun pre i m' hpre => above pre i m' (hpre.trans (List.prefix_append es [e]))
    have ne : e ≠ .reset := unreset e (List.mem_append_right _ List.mem_cons_self)
    have uncovered : (m.after es).covering a e = none := by
      cases covered : (m.after es).covering a e with
      | none => rfl
      | some b =>
        obtain ⟨i, m', rfl, done, op, low⟩ := ((covering_eq_some_iff ne).1 covered).in_font font
        have high := above es i m' (List.prefix_refl _) done op
        omega
    rw [after_concat, byte_perform (wf.after es), uncovered, Option.getD_none, before]

/-- **The last writer wins.** Over every history from a well-formed machine, a
byte of memory is what the last event that covers its address has put there, and
what it was in the beginning if none does. Those events are, resets apart, a
successful `FX33` and `FX55` and an accepted load, and none other. So the font
stays as it is while no successful `FX33` or `FX55` has its index below `80`. -/
theorem last_writer_wins (wf : m.WellFormed) :
    (∀ (es : List Event) (a : Fin 4096), (m.after es).memory.get a =
      ((m.lastSet (covering a) es).map Prod.fst).getD (m.memory.get a)) ∧
    (∀ (n : Machine σ) (e : Event) (a : Fin 4096) (b : UInt8), e ≠ .reset →
      (n.covering a e = some b ↔ n.Covers a e b)) ∧
    ∀ es : List Event, (∀ e ∈ es, e ≠ .reset) →
      (∀ pre i m', pre ++ [.step] <+: es → (m.after pre).step = .done i m' →
        i.opcode = .bcd ∨ i.opcode = .store → 80 ≤ (m.after pre).index) →
      ∀ a : Fin 4096, a.val < 80 → (m.after es).memory.get a = m.memory.get a :=
  ⟨byte_after wf, fun _ _ _ _ ne => covering_eq_some_iff ne,
    fun es unreset above _ font => font_after wf es unreset above font⟩

/-- A machine just switched on, where one number is drawn for ever. -/
def switchedOn : Machine Supply := powerOn Config.standard (.constant 0xAB)

theorem wellFormed_switchedOn : switchedOn.WellFormed := (bounded_powerOn (.inr rfl) _).toWellFormed

/-- A history in which digits are stored, registers are stored over two of them,
the word that comes next is none, and a shorter program is loaded. -/
def overlapping : List Event :=
  [.load [0x60, 0x9C, 0xA2, 0x0A, 0xF0, 0x33, 0xA2, 0x0B, 0xF1, 0x55], .step, .step, .step, .tick,
    .step, .step, .step, .load [0x61], .setKey (.int 3) true]

/-- Of the digits `1`, `5` and `56` only the first is left. -/
theorem overlapping_bytes :
    switchedOn.WellFormed ∧
      (switchedOn.after overlapping).memory.get 0x20A = 1 ∧
      (switchedOn.after overlapping).memory.get 0x20B = 0x9C ∧
      (switchedOn.after overlapping).memory.get 0x200 = 0x61 ∧
      switchedOn.Covers 0x200
        (.load [0x60, 0x9C, 0xA2, 0x0A, 0xF0, 0x33, 0xA2, 0x0B, 0xF1, 0x55]) 0x60 ∧
      (switchedOn.after overlapping).memory.get 4 = switchedOn.memory.get 4 := by
  obtain ⟨bytes, covers, font⟩ := last_writer_wins wellFormed_switchedOn
  refine ⟨wellFormed_switchedOn, ?_, ?_, ?_, (covers _ _ _ _ (by simp)).1 (by decide +kernel), ?_⟩
  · rw [bytes]
    decide +kernel
  · rw [bytes]
    decide +kernel
  · rw [bytes]
    decide +kernel
  · refine font overlapping (by simp [overlapping]) ?_ 4 (by decide)
    intro pre i m' hpre done op
    have high : ∀ pre ∈ overlapping.inits, ∀ i ∈ (switchedOn.after pre).step.1.toOption,
        i.opcode = .bcd ∨ i.opcode = .store → 80 ≤ (switchedOn.after pre).index := by
      decide +kernel
    refine high pre ((List.mem_inits pre _).2 ((List.prefix_append pre [.step]).trans hpre)) i ?_ op
    rw [done]
    rfl

end Machine

end ChipEight
