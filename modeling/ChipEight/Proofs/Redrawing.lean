/-
# A sprite drawn twice

Two draws of one sprite at one place undo each other. The second finds the
sprite where the first did if neither of its registers is the flag, which the
first has set; and it finds the display with the addressed cells flipped, so it
turns off what was off before. Between them the two flags tell of all addressed
cells, and there is one if some row of the sprite has a set bit.

Key theorems: `Machine.exists_addresses_iff`, `Machine.sprite_drawn`,
`Machine.drw_twice_restores_the_display`.
-/
import ChipEight.Proofs.Packing
import ChipEight.Proofs.Sprites

namespace ChipEight

/-- A byte is not zero iff one of its eight bits is set. -/
theorem byte_ne_zero_iff {v : UInt8} : v ≠ 0 ↔ ∃ k < 8, v.toNat.testBit (7 - k) := by
  constructor
  · intro nonzero
    by_contra unset
    refine nonzero (Grid.eq_of_testBit fun k hk => ?_)
    rw [UInt8.toNat_zero, Nat.zero_testBit]
    exact Bool.eq_false_iff.2 fun set => unset ⟨k, hk, set⟩
  · rintro ⟨k, -, set⟩ rfl
    rw [UInt8.toNat_zero, Nat.zero_testBit] at set
    cases set

namespace Machine

open Dimensions

variable {σ : Type} {m m' : Machine σ} {x y : Fin 16} {height : Nat}

/-! ### Addressed cells -/

/-- Some cell is addressed iff some row of the sprite has a set bit. -/
theorem exists_addresses_iff : (∃ c r, m.Addresses x y height c r) ↔
    ∃ i < height, Memory.byteAt (m.index + i).toNat m.memory ≠ 0 := by
  constructor
  · rintro ⟨c, r, i, lt, k, hk, -, -, set⟩
    exact ⟨i, lt, byte_ne_zero_iff.2 ⟨k, hk, set⟩⟩
  · rintro ⟨i, lt, nonzero⟩
    obtain ⟨k, hk, set⟩ := byte_ne_zero_iff.1 nonzero
    have column : ((m.reg y).toNat + k) % 64 < 64 := Nat.mod_lt _ (by decide)
    have row : ((m.reg x).toNat + i) % 32 < 32 := Nat.mod_lt _ (by decide)
    exact ⟨⟨_, column⟩, ⟨_, row⟩, i, lt, k, hk, rfl, rfl, set⟩

/-- Where a sprite falls is told by its two registers, the index register and
memory. -/
theorem addresses_congr (column : m'.reg y = m.reg y) (row : m'.reg x = m.reg x)
    (index : m'.index = m.index) (memory : m'.memory = m.memory) {c : Fin 64} {r : Fin 32} :
    m'.Addresses x y height c r ↔ m.Addresses x y height c r := by
  unfold Addresses
  rw [column, row, index, memory]

/-! ### The second draw -/

variable (hx : x ≠ flagRegister) (hy : y ≠ flagRegister)

include hx hy in
theorem addresses_drawn {c : Fin 64} {r : Fin 32} :
    (m.drawn x y height).Addresses x y height c r ↔ m.Addresses x y height c r := by
  have kept {z : Fin 16} (other : z ≠ flagRegister) : (m.drawn x y height).reg z = m.reg z :=
    sameAt_drawn (c := .register z) (by simp) (by simpa using other)
  exact addresses_congr (kept hy) (kept hx) rfl rfl

include hx hy in
/-- **The second draw undoes the first**, and turns off the addressed cells that
were off before both. -/
theorem sprite_drawn (inside : m.SpriteInside height) (low : height ≤ 32) :
    ((m.drawn x y height).sprite x y height).2 = m.display ∧
      (((m.drawn x y height).sprite x y height).1 ↔
        ∃ c r, m.Addresses x y height c r ∧ ¬m.display.pixel c r) := by
  have again : (m.drawn x y height).SpriteInside height := inside
  obtain ⟨flips, -⟩ := sprite_eq (x := x) (y := y) inside low
  obtain ⟨flips', hits⟩ := sprite_eq (x := x) (y := y) again low
  simp only [addresses_drawn hx hy] at flips' hits
  have between (c : Fin 64) (r : Fin 32) : (m.drawn x y height).display.pixel c r =
      (m.display.pixel c r ^^ decide (m.Addresses x y height c r)) := flips c r
  refine ⟨Grid.ext_pixel fun c r => ?_, hits.trans ?_⟩
  · rw [flips', between, Bool.xor_assoc, Bool.xor_self, Bool.xor_false]
  · refine exists_congr fun c => exists_congr fun r => and_congr_right fun addressed => ?_
    rw [between, decide_eq_true addressed, Bool.xor_true, Bool.not_eq_true, Bool.not_eq_true']

variable [RandomSource σ] {w : UInt16} {n : Fin 16}

include hx hy in
/-- **`DXYN` twice restores the display**, if neither register is the flag. The
first draw tells whether an addressed cell was on, and the second whether one
was off, so one of them tells of a cell iff some row of the sprite has a set
bit. Otherwise nothing has changed but the flag, the program counter and the
instruction count. -/
theorem drw_twice_restores_the_display (here : m.WordAt w) (again : m.past.WordAt w)
    (word : w.toNat = 0xD000 + 0x100 * x.val + 0x10 * y.val + n.val)
    (inside : n.val = 0 ∨ (0 ≤ m.index ∧ m.index + n.val ≤ 4096)) :
    ∃ m₁ m₂, m.step = .done ⟨w, .drw⟩ m₁ ∧ m₁.step = .done ⟨w, .drw⟩ m₂ ∧
      m₂.display = m.display ∧
      m₁.reg flagRegister =
        (if ∃ c r, m.Addresses x y n.val c r ∧ m.display.pixel c r then 1 else 0) ∧
      m₂.reg flagRegister =
        (if ∃ c r, m.Addresses x y n.val c r ∧ ¬m.display.pixel c r then 1 else 0) ∧
      (m₁.reg flagRegister = 1 ∨ m₂.reg flagRegister = 1 ↔
        ∃ i < n.val, Memory.byteAt (m.index + i).toNat m.memory ≠ 0) ∧
      m₂.pc = m.pc + 4 ∧ m₂.instructionCount = m.instructionCount + 2 ∧
      ∀ c : Cell, c ≠ .pc → c ≠ .count → c ≠ .register flagRegister → m.SameAt m₂ c := by
  let m₁ := (m.past.drawn x y n.val).counted
  let m₂ := (m₁.past.drawn x y n.val).counted
  have first : m.step = .done ⟨w, .drw⟩ m₁ := step_of_drw here word inside
  have second : m₁.step = .done ⟨w, .drw⟩ m₂ :=
    step_of_drw (show m₁.WordAt w from again) word inside
  obtain ⟨-, hits⟩ := sprite_eq (m := m.past) (x := x) (y := y) inside (by omega)
  obtain ⟨restored, hits'⟩ := sprite_drawn (m := m.past) hx hy inside (by omega)
  have flag : m₁.reg flagRegister =
      if ∃ c r, m.Addresses x y n.val c r ∧ m.display.pixel c r then 1 else 0 := by
    rw [reg_counted, flag_drawn]
    exact if_congr hits rfl rfl
  have flag' : m₂.reg flagRegister =
      if ∃ c r, m.Addresses x y n.val c r ∧ ¬m.display.pixel c r then 1 else 0 := by
    rw [reg_counted, flag_drawn]
    exact if_congr hits' rfl rfl
  refine ⟨m₁, m₂, first, second, restored, flag, flag', ?_, ?_, rfl, fun c pc count flag => ?_⟩
  · have told {p : Prop} [Decidable p] : (if p then (1 : UInt8) else 0) = 1 ↔ p := by
      split_ifs with h <;> simp [h]
    rw [flag, flag', told, told, ← exists_addresses_iff (x := x) (y := y)]
    constructor
    · rintro (⟨c, r, addressed, -⟩ | ⟨c, r, addressed, -⟩)
      · exact ⟨c, r, addressed⟩
      · exact ⟨c, r, addressed⟩
    · rintro ⟨c, r, addressed⟩
      by_cases on : m.display.pixel c r
      · exact .inl ⟨c, r, addressed, on⟩
      · exact .inr ⟨c, r, addressed, on⟩
  · show m.pc + 2 + 2 = m.pc + 4
    omega
  · by_cases display : c = .display
    · subst display
      exact restored
    · have once : m.SameAt m₁ c :=
        ((sameAt_past pc m).trans (sameAt_drawn display flag)).trans (sameAt_counted count _)
      have twice : m₁.SameAt m₂ c :=
        ((sameAt_past pc m₁).trans (sameAt_drawn display flag)).trans (sameAt_counted count _)
      exact once.trans twice

/-- `D6D6` twice, with a sprite of six rows that lies across a corner of the
display. One of its cells is on, as on the machine across the edges. -/
def acrossTheCorner : Machine Supply :=
  { filled 0xD6 0x200 0x300 with
    registers := .replicate 16 0xFE
    display := acrossTheEdges.display }

/-- The first draw turns that cell off, and the second all others. -/
theorem acrossTheCorner_drawn_twice :
    (acrossTheCorner.WordAt 0xD6D6 ∧ acrossTheCorner.past.WordAt 0xD6D6 ∧
      (0xD6D6 : UInt16).toNat = 0xD000 + 0x100 * (0x6 : Fin 16).val + 0x10 * (0xD : Fin 16).val
        + (0x6 : Fin 16).val ∧
      (0x6 : Fin 16) ≠ flagRegister ∧ (0xD : Fin 16) ≠ flagRegister ∧
      (0 ≤ acrossTheCorner.index ∧ acrossTheCorner.index + (0x6 : Fin 16).val ≤ 4096)) ∧
      ∃ m₁ m₂, acrossTheCorner.step = .done ⟨0xD6D6, .drw⟩ m₁ ∧
        m₁.step = .done ⟨0xD6D6, .drw⟩ m₂ ∧ m₂.display = acrossTheCorner.display ∧
        m₁.reg flagRegister = 1 ∧ m₂.reg flagRegister = 1 ∧ m₂.pc = 0x204 ∧
        m₂.index = 0x300 := by
  have here : acrossTheCorner.WordAt 0xD6D6 := by
    refine ⟨by decide, ?_⟩
    simp [acrossTheCorner, filled, Memory.byteAt]
  have again : acrossTheCorner.past.WordAt 0xD6D6 := by
    refine ⟨by decide, ?_⟩
    simp [acrossTheCorner, past, filled, Memory.byteAt]
  obtain ⟨m₁, m₂, first, second, restored, flag, flag', -, pc, -, same⟩ :=
    drw_twice_restores_the_display (x := 0x6) (y := 0xD) (n := 0x6) (by decide) (by decide) here
      again (by decide) (.inr (by decide))
  have on : acrossTheCorner.Addresses 0x6 0xD 6 1 3 ∧ acrossTheCorner.display.pixel 1 3 := by
    decide +kernel
  have off : acrossTheCorner.Addresses 0x6 0xD 6 62 30 ∧ ¬acrossTheCorner.display.pixel 62 30 := by
    decide +kernel
  refine ⟨⟨here, again, by decide, by decide, by decide, by decide⟩, m₁, m₂, first, second, restored,
    flag.trans (if_pos ⟨1, 3, on⟩), flag'.trans (if_pos ⟨62, 30, off⟩), pc, ?_⟩
  exact same .index (by simp) (by simp) (by simp)

end Machine

end ChipEight
