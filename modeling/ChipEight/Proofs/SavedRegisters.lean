/-
# Registers saved in memory

`FX55` puts the registers from the first to its own into memory, one byte after
the other from the index register on, and `FX65` takes them back from there.
Neither moves the index register, so the one finds what the other has left, as
long as nothing has moved the index or written to those bytes in between.

An `FX65` may take back fewer registers than were saved; the others keep what
they have. And registers that were just taken from memory are put back as they
are there, so nothing changes.

Key definitions: `Machine.RoomFor`, `Machine.PlaceOf`, `Machine.SavedIn`,
`Machine.Spares`.
Key theorems: `Machine.step_of_store`, `Machine.step_of_load`,
`Machine.SavedIn.of_changes`, `Machine.SavedIn.restored`,
`Machine.memory_of_savedIn`, `Machine.saved_registers_are_restored`.
-/
import ChipEight.Proofs.ReadSet
import ChipEight.Proofs.WordPrograms
import Mathlib.Logic.Relation

namespace ChipEight

namespace Machine

variable {σ : Type} {m m' n : Machine σ} {i j : Instruction} {x y : Fin 16} {a : Fin 4096}

/-! ### Places in memory -/

/-- The bytes for the registers up to `x` are in memory. -/
def RoomFor (x : Fin 16) (m : Machine σ) : Prop := 0 ≤ m.index ∧ m.index + x.val ≤ 4095

/-- A byte of memory is the place of a register. -/
def PlaceOf (r : Fin 16) (m : Machine σ) (a : Fin 4096) : Prop := (a.val : Int) = m.index + r.val

theorem RoomFor.of_le (room : m.RoomFor x) (fewer : y ≤ x) (index : n.index = m.index) :
    n.RoomFor y := by
  have fewer : y.val ≤ x.val := fewer
  obtain ⟨above, below⟩ := room
  rw [RoomFor, index]
  exact ⟨above, by omega⟩

theorem RoomFor.span (room : m.RoomFor x) : Span.outside? m.index (x.val + 1) = none :=
  Span.outside?_eq_none_iff.2 (.inr ⟨room.1, by have := room.2; omega⟩)

/-- A register that there is room for has its place. -/
theorem RoomFor.exists_place (room : m.RoomFor x) {r : Fin 16} (upTo : r ≤ x) :
    ∃ a, m.PlaceOf r a := by
  have upTo : r.val ≤ x.val := upTo
  obtain ⟨above, below⟩ := room
  exact ⟨⟨m.index.toNat + r.val, by omega⟩, by simp only [PlaceOf]; omega⟩

/-- The second machine has the registers of the first up to `x` in their places. -/
structure SavedIn (x : Fin 16) (m n : Machine σ) : Prop where
  index : n.index = m.index
  registers : ∀ r a, r ≤ x → m.PlaceOf r a → n.memory.get a = m.reg r

/-- From the first machine to the second the places of the registers up to `x`
stay what they are, and keep what is in them. -/
structure Spares (x : Fin 16) (m n : Machine σ) : Prop where
  index : n.index = m.index
  bytes : ∀ r a, r ≤ x → m.PlaceOf r a → n.memory.get a = m.memory.get a

theorem SavedIn.of_le (saved : SavedIn x m n) (fewer : y ≤ x) : SavedIn y m n :=
  ⟨saved.index, fun r a upTo => saved.registers r a (Fin.le_trans upTo fewer)⟩

theorem SavedIn.of_change {l : Machine σ} (saved : SavedIn x m n) (spares : Spares x n l) :
    SavedIn x m l := by
  refine ⟨spares.index.trans saved.index, fun r a upTo place => ?_⟩
  rw [spares.bytes r a upTo (by rwa [PlaceOf, saved.index]), saved.registers r a upTo place]

/-- **Registers stay saved through any changes that spare them.** -/
theorem SavedIn.of_changes {l : Machine σ} (saved : SavedIn x m n)
    (changes : Relation.ReflTransGen (Spares x) n l) : SavedIn x m l := by
  induction changes with
  | refl => exact saved
  | tail _ change ih => exact ih.of_change change

/-! ### The two instructions -/

variable [RandomSource σ]

/-- `FX55` puts each register in its place. -/
theorem step_of_store (here : m.Next i) (op : i.opcode = .store) (room : m.RoomFor i.x) :
    ∃ m', m.step = .done i m' ∧ ∀ r a, r ≤ i.x → m.PlaceOf r a → m'.memory.get a = m.reg r := by
  have free : Span.outside? m.past.index (i.x.val + 1) = none := room.span
  have executed : execute i m.past =
      .done () (m.past.write (m.registers.toList.take (i.x.val + 1))) := by
    simp only [execute, op, storeRegisters, withSpan_of_inside free]
    rfl
  refine ⟨_, by rw [step_of_next here, executed, Attempt.andThen_done], fun r a upTo place => ?_⟩
  have there : a.val = m.index.toNat + r.val := by
    have := room.1
    simp only [PlaceOf] at place
    omega
  have put : Memory.placed m.index.toNat (m.registers.toList.take (i.x.val + 1)) a.val =
      some (m.reg r) := Memory.placed_registers_iff.2 ⟨r, upTo, there, rfl⟩
  show (Memory.overlay m.index.toNat _ m.memory).get a = _
  rw [Memory.get_overlay, put, Option.getD_some]

/-- `FX65` takes each register from its place. -/
theorem step_of_load (here : m.Next i) (op : i.opcode = .load) (room : m.RoomFor i.x) :
    ∃ m', m.step = .done i m' ∧ ∀ r a, r ≤ i.x → m.PlaceOf r a → m'.reg r = m.memory.get a := by
  have free : Span.outside? m.past.index (i.x.val + 1) = none := room.span
  refine ⟨(execute i m.past).2.counted, ?_, fun r a upTo place => ?_⟩
  · rw [step_of_next here]
    simp only [execute, op, loadRegisters, withSpan_of_inside free, Attempt.andThen_done]
  · have there : m.index.toNat + r.val = a.val := by
      have := room.1
      simp only [PlaceOf] at place
      omega
    simp only [execute, op, loadRegisters, withSpan_of_inside free, reg_counted]
    show (Vector.ofFn _)[r.val] = _
    rw [Vector.getElem_ofFn, if_pos upTo]
    show Memory.byteAt (m.index.toNat + r.val) m.memory = _
    rw [there]
    exact Memory.byteAt_eq a.isLt m.memory

/-- An `FX55` that is done changes no cell but the places of its registers. -/
theorem sameAt_of_store_done (h : m.step = .done i m') (op : i.opcode = .store) {c : Cell}
    (pc : c ≠ .pc) (count : c ≠ .count)
    (elsewhere : ∀ r a, r ≤ i.x → m.PlaceOf r a → c ≠ .memory a) : m.SameAt m' c := by
  refine sameAt_of_step_done h pc count fun written => ?_
  simp only [Instruction.Writes, op] at written
  obtain ⟨a, ⟨above, below⟩, rfl⟩ := written
  have small : (a.val - m.index).toNat < 16 := by have := i.x.isLt; omega
  refine elsewhere ⟨(a.val - m.index).toNat, small⟩ a (Fin.le_def.2 ?_) ?_ rfl
  · simp only
    omega
  · simp only [PlaceOf]
    omega

/-- An `FX65` that is done changes no cell but its registers. -/
theorem sameAt_of_load_done (h : m.step = .done i m') (op : i.opcode = .load) {c : Cell}
    (pc : c ≠ .pc) (count : c ≠ .count) (elsewhere : ∀ r ≤ i.x, c ≠ .register r) :
    m.SameAt m' c := by
  refine sameAt_of_step_done h pc count fun written => ?_
  simp only [Instruction.Writes, op] at written
  obtain ⟨r, upTo, rfl⟩ := written
  exact elsewhere r upTo rfl

/-- An `FX65` that is done leaves the registers above its own alone. -/
theorem reg_of_load_done (h : m.step = .done i m') (op : i.opcode = .load) {r : Fin 16}
    (above : i.x < r) : m'.reg r = m.reg r := by
  refine sameAt_of_load_done (c := .register r) h op (by simp) (by simp) fun s upTo e => ?_
  obtain rfl := Cell.register.inj e
  exact Fin.not_le.2 above upTo

/-! ### Saved and taken back -/

theorem savedIn_of_store (here : m.Next i) (op : i.opcode = .store) (room : m.RoomFor i.x) :
    ∃ m', m.step = .done i m' ∧ SavedIn i.x m m' := by
  obtain ⟨m', done, put⟩ := step_of_store here op room
  exact ⟨m', done, sameAt_of_store_done (c := .index) done op (by simp) (by simp) (by simp), put⟩

/-- **Saved registers are taken back**, those up to its own and no others. -/
theorem SavedIn.restored (saved : SavedIn x m n) (room : m.RoomFor x) (there : n.Next j)
    (op : j.opcode = .load) (fewer : j.x ≤ x) :
    ∃ n', n.step = .done j n' ∧ ∀ r, n'.reg r = if r ≤ j.x then m.reg r else n.reg r := by
  obtain ⟨n', done, taken⟩ := step_of_load there op (room.of_le fewer saved.index)
  refine ⟨n', done, fun r => ?_⟩
  split_ifs with upTo
  · obtain ⟨a, place⟩ := room.exists_place (Fin.le_trans upTo fewer)
    rw [taken r a upTo (by rwa [PlaceOf, saved.index]),
      (saved.of_le fewer).registers r a upTo place]
  · exact reg_of_load_done done op (Fin.not_le.1 upTo)

/-- **Registers that are in their places already** are put there without a change. -/
theorem memory_of_savedIn (saved : SavedIn i.x m m) (room : m.RoomFor i.x)
    (done : m.step = .done i m') (op : i.opcode = .store) : m'.memory = m.memory := by
  obtain ⟨m₁, stored, put⟩ := step_of_store (of_step_done done).1 op room
  obtain rfl : m₁ = m' := congrArg Prod.snd (stored.symm.trans done)
  suffices same : ∀ a : Fin 4096, m₁.memory.get a = m.memory.get a from
    Vector.ext fun a ha => same ⟨a, ha⟩
  intro a
  by_cases inside : ∃ r ≤ i.x, m.PlaceOf r a
  · obtain ⟨r, upTo, place⟩ := inside
    rw [put r a upTo place, saved.registers r a upTo place]
  · refine sameAt_of_store_done (c := .memory a) done op (by simp) (by simp)
      fun r b upTo place e => ?_
    obtain rfl := Cell.memory.inj e
    exact inside ⟨r, upTo, place⟩

/-- **`FX65` takes back what `FX55` has saved.** Let the bytes for the registers
up to `X` be in memory. `FX55` puts each of these registers in its place, the
last one with them, and changes nothing else but the program counter and the
instruction count. Then let anything happen that spares these places: an `FY65`
with `Y` no greater than `X` gives the registers up to `Y` what they had before,
and leaves the others alone.

The other way round, `FX65` takes each of these registers from its place, and if
an `FY55` follows with `Y` no greater than `X`, memory is as it was. -/
theorem saved_registers_are_restored (here : m.Next i)
    (room : 0 ≤ m.index ∧ m.index + i.x.val ≤ 4095) :
    (i.opcode = .store → ∃ m₁, m.step = .done i m₁ ∧
      (∀ r a, r ≤ i.x → m.PlaceOf r a → m₁.memory.get a = m.reg r) ∧
      (∀ c : Cell, c ≠ .pc → c ≠ .count →
        (∀ r a, r ≤ i.x → m.PlaceOf r a → c ≠ .memory a) → m.SameAt m₁ c) ∧
      ∀ n j, Relation.ReflTransGen (Spares i.x) m₁ n → n.Next j → j.opcode = .load →
        j.x ≤ i.x → ∃ n', n.step = .done j n' ∧
          ∀ r, n'.reg r = if r ≤ j.x then m.reg r else n.reg r) ∧
    (i.opcode = .load → ∃ m₁, m.step = .done i m₁ ∧
      (∀ r a, r ≤ i.x → m.PlaceOf r a → m₁.reg r = m.memory.get a) ∧
      (∀ r, i.x < r → m₁.reg r = m.reg r) ∧
      ∀ j, m.past.Next j → j.opcode = .store → j.x ≤ i.x →
        ∃ m₂, m₁.step = .done j m₂ ∧ m₂.memory = m.memory) := by
  have room : m.RoomFor i.x := room
  constructor
  · intro op
    obtain ⟨m₁, done, saved⟩ := savedIn_of_store here op room
    exact ⟨m₁, done, saved.registers, fun c => sameAt_of_store_done done op,
      fun n j changes there op' fewer => (saved.of_changes changes).restored room there op' fewer⟩
  · intro op
    obtain ⟨m₁, done, taken⟩ := step_of_load here op room
    have same {c : Cell} (pc : c ≠ .pc) (count : c ≠ .count)
        (elsewhere : ∀ r ≤ i.x, c ≠ .register r) : m.SameAt m₁ c :=
      sameAt_of_load_done done op pc count elsewhere
    have index : m₁.index = m.index := same (c := .index) (by simp) (by simp) (by simp)
    have byte (a : Fin 4096) : m₁.memory.get a = m.memory.get a :=
      same (c := .memory a) (by simp) (by simp) (by simp)
    have pc : m₁.pc = m.past.pc := pc_of_step_done done (by simp [op, Opcode.detours])
    refine ⟨m₁, done, taken, fun r => reg_of_load_done done op, fun j there op' fewer => ?_⟩
    have next : m₁.Next j := ⟨wordAt_of_agree pc (fun a _ => byte a) there.1, there.2⟩
    have room₁ : m₁.RoomFor j.x := room.of_le fewer index
    have saved : SavedIn j.x m₁ m₁ := by
      refine ⟨rfl, fun r a upTo place => ?_⟩
      rw [PlaceOf, index] at place
      rw [byte, taken r a (Fin.le_trans upTo fewer) place]
    obtain ⟨m₂, done₂, -⟩ := step_of_store next op' room₁
    refine ⟨m₂, done₂, ?_⟩
    rw [memory_of_savedIn saved room₁ done₂ op']
    exact Vector.ext fun a ha => byte ⟨a, ha⟩

/-- `FF55`, `F365` and `F255` in a row, with all sixteen places at the top of memory. -/
def savingAll : Machine Supply :=
  { filled 0 0x200 4080 with
    memory := Memory.overlay 0x200 [0xFF, 0x55, 0xF3, 0x65, 0xF2, 0x55] (.replicate 4096 7)
    registers := Vector.ofFn fun r => UInt8.ofNat (16 * r.val + 1) }

/-- All registers are saved, the last in the last byte of memory; of registers
that are cleared then four are taken back. And of four that are taken from
memory three are put back. -/
theorem savingAll_restores_four :
    (savingAll.Next ⟨0xFF55, .store⟩ ∧ { savingAll with pc := 0x202 }.Next ⟨0xF365, .load⟩ ∧
      (0 ≤ savingAll.index ∧ savingAll.index + (0xF : Fin 16).val ≤ 4095)) ∧
    (∃ m₁ n', savingAll.step = .done ⟨0xFF55, .store⟩ m₁ ∧ m₁.memory.get 4095 = 0xF1 ∧
      { m₁ with pc := 0x202, registers := .replicate 16 0 }.step = .done ⟨0xF365, .load⟩ n' ∧
      n'.reg 3 = 0x31 ∧ n'.reg 4 = 0) ∧
    ∃ m₁ m₂, { savingAll with pc := 0x202 }.step = .done ⟨0xF365, .load⟩ m₁ ∧ m₁.reg 3 = 7 ∧
      m₁.step = .done ⟨0xF255, .store⟩ m₂ ∧ m₂.memory = savingAll.memory := by
  have saves : savingAll.Next ⟨0xFF55, .store⟩ := by
    refine ⟨⟨by decide, ?_⟩, by decide⟩
    simp [savingAll, filled, Memory.byteAt, Memory.getElem_overlay]
  have takes : { savingAll with pc := 0x202 }.Next ⟨0xF365, .load⟩ := by
    refine ⟨⟨by decide, ?_⟩, by decide⟩
    simp [savingAll, filled, Memory.byteAt, Memory.getElem_overlay]
  have again : { savingAll with pc := 0x202 }.past.Next ⟨0xF255, .store⟩ := by
    refine ⟨⟨by decide, ?_⟩, by decide⟩
    simp [past, savingAll, filled, Memory.byteAt, Memory.getElem_overlay]
  refine ⟨⟨saves, takes, by decide⟩, ?_, ?_⟩
  · obtain ⟨m₁, done, put, same, back⟩ :=
      (saved_registers_are_restored saves (by decide)).1 rfl
    let n := { m₁ with pc := 0x202, registers := .replicate 16 0 }
    have there : n.Next ⟨0xF365, .load⟩ :=
      ⟨wordAt_of_agree (m := { savingAll with pc := 0x202 }) rfl (fun a ha =>
        same (.memory a) (by simp) (by simp) fun r b _ place e => by
          obtain rfl := Cell.memory.inj e
          have high : (a.val : Int) = 4080 + r.val := place
          have low : (a.val : Int) ≤ 0x202 + 1 := ha.2
          omega) takes.1, takes.2⟩
    obtain ⟨n', taken, registers⟩ :=
      back n _ (.single ⟨rfl, fun _ _ _ _ => rfl⟩) there rfl (by decide)
    exact ⟨m₁, n', done, put 15 4095 (by decide) rfl, taken, registers 3, registers 4⟩
  · obtain ⟨m₁, done, taken, -, back⟩ := (saved_registers_are_restored takes (by decide)).2 rfl
    obtain ⟨m₂, stored, memory⟩ := back _ again rfl (by decide)
    refine ⟨m₁, m₂, done, (taken 3 4083 (by decide) rfl).trans ?_, stored, memory⟩
    show (Memory.overlay 0x200 _ _)[4083] = 7
    simp [Memory.getElem_overlay]

end Machine

end ChipEight
