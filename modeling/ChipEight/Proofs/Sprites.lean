/-
# Where a sprite falls

A sprite that is no higher than the grid falls on no row twice, so it may be
drawn row by row and still be described by the grid that it is drawn on: the
cells that its set bits cover are flipped, and a pixel is turned off iff a
covered cell was on before.

For `DXYN` that is said of the machine: its columns start at the value of
register `Y` and its rows at that of register `X`, both as they are before the
flag is set.

Key definitions: `Grid.covers`, `Machine.Addresses`.
Key theorems: `Grid.wrap_ne_wrap`, `Grid.pixel_drawSprite`,
`Grid.drawSprite_fst`, `Machine.step_of_drw`,
`Machine.drw_flips_what_it_addresses`.
-/
import ChipEight.Proofs.Drawing
import ChipEight.Proofs.MemoryWrites
import ChipEight.Proofs.StepEffects

namespace ChipEight

namespace Grid

/-! ### Wrapping round -/

theorem val_wrap_natCast {size : Nat} (positive : 0 < size) (n : Nat) :
    (wrap size positive n).val = n % size := by
  show ((n : Int) % size).toNat = n % size
  omega

/-- Numbers that are less than one round apart fall on different places. -/
theorem wrap_ne_wrap {size : Nat} (positive : 0 < size) {i j : Int} (lt : i < j)
    (near : j < i + size) : wrap size positive i ≠ wrap size positive j := by
  intro same
  have rest : (i % size).toNat = (j % size).toNat := congrArg Fin.val same
  have apart : (j - i) % size = 0 := by
    have hi := Int.emod_nonneg i (b := size) (by omega)
    have hj := Int.emod_nonneg j (b := size) (by omega)
    exact Int.emod_eq_emod_iff_emod_sub_eq_zero.1 (by omega)
  rw [Int.emod_eq_of_lt (by omega) (by omega)] at apart
  omega

section

variable {w h : Nat} (hw : 0 < w) (hh : 0 < h) (x : Int)

/-! ### Covered cells -/

theorem mem_columns_iff {row : UInt8} {c : Fin w} :
    c ∈ columns w hw x row ↔
      ∃ k < 8, row.toNat.testBit (7 - k) ∧ wrap w hw (signed64 (x + k)) = c := by
  simp only [columns, List.mem_map, List.mem_filter, List.mem_range, and_assoc]

/-- Whether a set bit of a sprite falls on a cell. -/
def covers : (y : Int) → List UInt8 → Fin w → Fin h → Bool
  | _, [], _, _ => false
  | y, row :: rows, c, r =>
    (columns w hw x row).contains c && decide (r = wrap h hh y) || covers (y + 1) rows c r

theorem covers_cons {row : UInt8} {rows : List UInt8} {y : Int} {c : Fin w} {r : Fin h} :
    covers hw hh x y (row :: rows) c r ↔
      c ∈ columns w hw x row ∧ r = wrap h hh y ∨ covers hw hh x (y + 1) rows c r := by
  rw [covers, Bool.or_eq_true, Bool.and_eq_true, List.contains_iff_mem, decide_eq_true_eq]

theorem covers_iff {rows : List UInt8} {y : Int} {c : Fin w} {r : Fin h} :
    covers hw hh x y rows c r ↔ ∃ i : Nat, ∃ row, rows[i]? = some row ∧
      c ∈ columns w hw x row ∧ r = wrap h hh (y + i) := by
  induction rows generalizing y with
  | nil => simp [covers]
  | cons row rows ih =>
    have next (i : Nat) : y + 1 + (i : Int) = y + (i + 1 : Nat) := by omega
    rw [covers_cons, ih]
    constructor
    · rintro (⟨column, falls⟩ | ⟨i, row', found, column, falls⟩)
      · exact ⟨0, row, rfl, column, by rw [falls, Int.natCast_zero, Int.add_zero]⟩
      · exact ⟨i + 1, row', found, column, by rw [falls, next]⟩
    · rintro ⟨_ | i, row', found, column, falls⟩
      · obtain rfl := Option.some.inj found
        rw [Int.natCast_zero, Int.add_zero] at falls
        exact .inl ⟨column, falls⟩
      · exact .inr ⟨i, row', found, column, by rw [falls, next]⟩

/-- No row of the grid is met again before all the others have been. -/
theorem covers_next {rows : List UInt8} (few : rows.length < h) {y : Int} {c : Fin w} {r : Fin h}
    (covered : covers hw hh x (y + 1) rows c r) : r ≠ wrap h hh y := by
  obtain ⟨i, row, found, -, falls⟩ := (covers_iff hw hh x).1 covered
  have lt : i < rows.length := (List.getElem?_eq_some_iff.1 found).1
  rw [falls]
  exact (wrap_ne_wrap hh (by omega) (by omega)).symm

/-! ### Sprites no higher than the grid -/

/-- **A sprite flips the cells that it covers.** -/
theorem pixel_drawSprite {rows : List UInt8} (fits : rows.length ≤ h) {y : Int} {g : Grid w h}
    {c : Fin w} {r : Fin h} :
    (drawSprite hw hh x y rows g).2.pixel c r = (g.pixel c r ^^ covers hw hh x y rows c r) := by
  induction rows generalizing y g with
  | nil => exact (Bool.xor_false _).symm
  | cons row rows ih =>
    -- no cell is flipped both by the first row and by the others, so `^^` is `||` here
    have apart : covers hw hh x (y + 1) rows c r →
        ((columns w hw x row).contains c && decide (r = wrap h hh y)) = false := fun covered => by
      rw [decide_eq_false (covers_next hw hh x fits covered), Bool.and_false]
    rw [drawSprite_cons, ih (Nat.le_of_succ_le fits), pixel_drawRow, covers, Bool.xor_assoc]
    cases later : covers hw hh x (y + 1) rows c r with
    | false => rw [Bool.xor_false, Bool.or_false]
    | true => rw [apart later, Bool.false_xor, Bool.false_or]

/-- **A sprite turns a pixel off iff it covers one that is on.** -/
theorem drawSprite_fst {rows : List UInt8} (fits : rows.length ≤ h) {y : Int} {g : Grid w h} :
    (drawSprite hw hh x y rows g).1 ↔ ∃ c r, covers hw hh x y rows c r ∧ g.pixel c r := by
  induction rows generalizing y g with
  | nil => simp [drawSprite, covers]
  | cons row rows ih =>
    -- the others meet the pixels that were there before the first row
    have kept {c : Fin w} {r : Fin h} (covered : covers hw hh x (y + 1) rows c r) :
        (drawRow (columns w hw x row) (wrap h hh y) g).2.pixel c r = g.pixel c r := by
      rw [pixel_drawRow, decide_eq_false (covers_next hw hh x fits covered), Bool.and_false,
        Bool.xor_false]
    rw [drawSprite_cons, Bool.or_eq_true, ih (Nat.le_of_succ_le fits), drawRow_fst,
      List.any_eq_true]
    constructor
    · rintro (⟨c, column, on⟩ | ⟨c, r, later, on⟩)
      · exact ⟨c, wrap h hh y, (covers_cons hw hh x).2 (.inl ⟨column, rfl⟩), on⟩
      · exact ⟨c, r, (covers_cons hw hh x).2 (.inr later), by rwa [kept later] at on⟩
    · rintro ⟨c, r, covered, on⟩
      rcases (covers_cons hw hh x).1 covered with ⟨column, rfl⟩ | later
      · exact .inl ⟨c, column, on⟩
      · exact .inr ⟨c, r, later, by rwa [kept later]⟩

end

end Grid

/-! ### The draw instruction -/

/-- The digits of a word are those that it is made of. -/
theorem Word.digits_of_toNat {w : UInt16} {f x y n : Fin 16}
    (e : w.toNat = 4096 * f.val + 256 * x.val + 16 * y.val + n.val) :
    Word.family w = f ∧ Word.x w = x ∧ Word.y w = y ∧ Word.n w = n := by
  simp only [Fin.ext_iff, Word.family, Word.x, Word.y, Word.n]
  omega

theorem Dimensions.screenWidth_pos : 0 < screenWidth := by decide

theorem Dimensions.screenHeight_pos : 0 < screenHeight := by decide

namespace Machine

open Dimensions

variable {σ : Type} {m : Machine σ} {x y : Fin 16} {height : Nat}

/-- What a sprite at the index register does to the display, and whether it turns a pixel off. -/
def sprite (x y : Fin 16) (height : Nat) (m : Machine σ) : Bool × Grid 64 32 :=
  m.display.drawSprite screenWidth_pos screenHeight_pos (m.reg y).toNat (m.reg x).toNat
    (m.read height)

/-- A cell of the display is addressed by a set bit of the sprite at the index register. Columns
are counted from the value of `y` and rows from that of `x`, and both go round. -/
def Addresses (x y : Fin 16) (height : Nat) (m : Machine σ) (c : Fin 64) (r : Fin 32) : Prop :=
  ∃ i < height, ∃ k < 8, c.val = ((m.reg y).toNat + k) % 64 ∧ r.val = ((m.reg x).toNat + i) % 32 ∧
    (Memory.byteAt (m.index + i).toNat m.memory).toNat.testBit (7 - k)

instance (c : Fin 64) (r : Fin 32) : Decidable (m.Addresses x y height c r) :=
  inferInstanceAs (Decidable (∃ i < height, ∃ k < 8, _ ∧ _ ∧ _))

/-- The rows of a sprite are in memory. -/
def SpriteInside (height : Nat) (m : Machine σ) : Prop :=
  height = 0 ∨ (0 ≤ m.index ∧ m.index + height ≤ 4096)

theorem read_of_inside (inside : m.SpriteInside height) :
    (m.read height).length = height ∧ ∀ i < height,
      (m.read height)[i]? = some (Memory.byteAt (m.index + i).toNat m.memory) := by
  rcases inside with rfl | ⟨above, below⟩
  · exact ⟨rfl, fun i hi => absurd hi (Nat.not_lt_zero i)⟩
  · have fits : m.index.toNat + height ≤ 4096 := by omega
    have length := Memory.length_slice fits m.memory
    refine ⟨length, fun i hi => ?_⟩
    have here : (m.index + i).toNat = m.index.toNat + i := by omega
    rw [read, List.getElem?_eq_getElem (by omega), Memory.getElem_slice fits, here]

theorem val_wrap_column (v : UInt8) {k : Nat} (hk : k < 8) :
    (Grid.wrap 64 screenWidth_pos (Grid.signed64 (v.toNat + k))).val = (v.toNat + k) % 64 := by
  have byte := v.toNat_lt
  have fits : Grid.fits64 ((v.toNat : Int) + k) := by
    simp only [Grid.fits64, Bool.and_eq_true, decide_eq_true_eq]
    omega
  rw [Grid.signed64_of_fits fits, ← Int.natCast_add, Grid.val_wrap_natCast]

theorem val_wrap_row (v : UInt8) (i : Nat) :
    (Grid.wrap 32 screenHeight_pos (v.toNat + i)).val = (v.toNat + i) % 32 := by
  rw [← Int.natCast_add, Grid.val_wrap_natCast]

/-- What the sprite covers is what is addressed. -/
theorem covers_iff_addresses (inside : m.SpriteInside height) {c : Fin 64} {r : Fin 32} :
    Grid.covers screenWidth_pos screenHeight_pos (m.reg y).toNat (m.reg x).toNat
        (m.read height) c r ↔
      m.Addresses x y height c r := by
  obtain ⟨length, bytes⟩ := read_of_inside inside
  rw [Grid.covers_iff]
  constructor
  · rintro ⟨i, row, found, column, rfl⟩
    have lt : i < height := length ▸ (List.getElem?_eq_some_iff.1 found).1
    rw [bytes i lt] at found
    obtain rfl := Option.some.inj found
    obtain ⟨k, hk, set, rfl⟩ := (Grid.mem_columns_iff _ _).1 column
    exact ⟨i, lt, k, hk, val_wrap_column _ hk, val_wrap_row _ i, set⟩
  · rintro ⟨i, lt, k, hk, column, row, set⟩
    exact ⟨i, _, bytes i lt,
      (Grid.mem_columns_iff _ _).2 ⟨k, hk, set, Fin.ext ((val_wrap_column _ hk).trans column.symm)⟩,
      Fin.ext (row.trans (val_wrap_row _ i).symm)⟩

/-- **What a sprite does to the display** is told by the cells that it addresses. -/
theorem sprite_eq (inside : m.SpriteInside height) (low : height ≤ 32) :
    (∀ c r, (m.sprite x y height).2.pixel c r =
      (m.display.pixel c r ^^ decide (m.Addresses x y height c r))) ∧
    ((m.sprite x y height).1 ↔ ∃ c r, m.Addresses x y height c r ∧ m.display.pixel c r) := by
  have fits : (m.read height).length ≤ 32 := by rwa [(read_of_inside inside).1]
  refine ⟨fun c r => ?_, ?_⟩
  · rw [sprite, Grid.pixel_drawSprite _ _ _ fits]
    congr 1
    rw [Bool.eq_iff_iff, decide_eq_true_eq, covers_iff_addresses inside]
  · rw [sprite, Grid.drawSprite_fst _ _ _ fits]
    simp only [covers_iff_addresses inside]

/-- The machine with the sprite at the index register drawn and the flag set. -/
def drawn (x y : Fin 16) (height : Nat) (m : Machine σ) : Machine σ :=
  { m with display := (m.sprite x y height).2 }.withFlag (m.sprite x y height).1

theorem flag_drawn (x y : Fin 16) (height : Nat) (m : Machine σ) :
    (m.drawn x y height).reg flagRegister = if (m.sprite x y height).1 then 1 else 0 :=
  Vector.getElem_set_self _

theorem sameAt_drawn {c : Cell} (display : c ≠ .display)
    (flag : c ≠ .register flagRegister) : m.SameAt (m.drawn x y height) c := by
  have shown : m.SameAt { m with display := (m.sprite x y height).2 } c := by
    cases c <;> first | rfl | contradiction
  exact shown.trans (sameAt_withReg flag _)

variable [RandomSource σ] {w : UInt16} {n : Fin 16}

/-- `DXYN` draws if its sprite is in memory. -/
theorem step_of_drw (here : m.WordAt w)
    (word : w.toNat = 0xD000 + 0x100 * x.val + 0x10 * y.val + n.val)
    (inside : m.SpriteInside n.val) :
    m.step = .done ⟨w, .drw⟩ (m.past.drawn x y n.val).counted := by
  obtain ⟨family, rfl, rfl, rfl⟩ := Word.digits_of_toNat (f := 0xD) word
  have next : m.Next ⟨w, .drw⟩ := ⟨here, congrArg Fin.val family⟩
  have free : Span.outside? m.past.index (Word.n w).val = none :=
    Span.outside?_eq_none_iff.2 inside
  rw [step_of_next next]
  simp only [execute, draw, Instruction.n, withSpan_of_inside free]
  rfl

/-- **`DXYN` flips the cells that it addresses**, which are those of the set bits of its sprite, and
the flag tells whether one of them was on. Everything else stays as it was, but for the program
counter and the instruction count. -/
theorem drw_flips_what_it_addresses (here : m.WordAt w)
    (word : w.toNat = 0xD000 + 0x100 * x.val + 0x10 * y.val + n.val)
    (inside : n.val = 0 ∨ (0 ≤ m.index ∧ m.index + n.val ≤ 4096)) :
    ∃ m', m.step = .done ⟨w, .drw⟩ m' ∧
      (∀ c r, m'.display.pixel c r ≠ m.display.pixel c r ↔ m.Addresses x y n.val c r) ∧
      m'.reg flagRegister =
        (if ∃ c r, m.Addresses x y n.val c r ∧ m.display.pixel c r then 1 else 0) ∧
      (∀ c : Cell, c ≠ .pc → c ≠ .count → c ≠ .display → c ≠ .register flagRegister →
        m.SameAt m' c) ∧
      m'.pc = m.pc + 2 ∧ m'.instructionCount = m.instructionCount + 1 := by
  obtain ⟨flips, hits⟩ := sprite_eq (m := m.past) (x := x) (y := y) inside (by omega)
  refine ⟨_, step_of_drw here word inside, fun c r => ?_, ?_, fun c pc count display flag => ?_,
    rfl, rfl⟩
  · have drawn : (m.past.drawn x y n.val).display.pixel c r =
        (m.display.pixel c r ^^ decide (m.Addresses x y n.val c r)) := flips c r
    show (m.past.drawn x y n.val).display.pixel c r ≠ _ ↔ _
    rw [drawn]
    cases m.display.pixel c r <;> simp
  · exact (flag_drawn x y n.val m.past).trans (if_congr hits rfl rfl)
  · exact ((sameAt_past pc m).trans (sameAt_drawn display flag)).trans (sameAt_counted count _)

/-- `DFDF` draws fifteen rows across two edges of the display. Its rows start at the value of the
flag register, and one of its cells is on. -/
def acrossTheEdges : Machine Supply :=
  { filled 0xDF 0x200 0x300 with
    registers := ((Vector.replicate 16 0).set 0xD 125).set 0xF 250
    display := Grid.blank.flip 1 3 }

/-- The cell is turned off. Of the first row the first cell is turned on; the third is not addressed
and stays off. -/
theorem acrossTheEdges_flips :
    acrossTheEdges.WordAt 0xDFDF ∧
      (0xDFDF : UInt16).toNat = 0xD000 + 0x100 * (0xF : Fin 16).val + 0x10 * (0xD : Fin 16).val
        + (0xF : Fin 16).val ∧
      (0 ≤ acrossTheEdges.index ∧ acrossTheEdges.index + (0xF : Fin 16).val ≤ 4096) ∧
      ∃ m', acrossTheEdges.step = .done ⟨0xDFDF, .drw⟩ m' ∧
        m'.display.pixel 1 3 = false ∧ m'.display.pixel 61 26 = true ∧
        m'.display.pixel 63 26 = false ∧ m'.reg 0xF = 1 ∧ m'.reg 0xD = 125 := by
  have here : acrossTheEdges.WordAt 0xDFDF := by
    refine ⟨by decide, ?_⟩
    simp [acrossTheEdges, filled, Memory.byteAt]
  obtain ⟨m', done, flips, flag, same, -⟩ :=
    drw_flips_what_it_addresses (x := 0xF) (y := 0xD) (n := 0xF) here (by decide)
      (.inr (by decide))
  have hit : acrossTheEdges.Addresses 0xF 0xD 15 1 3 ∧ acrossTheEdges.display.pixel 1 3 := by
    decide +kernel
  refine ⟨here, by decide, by decide, m', done, ?_, ?_, ?_, ?_, ?_⟩
  · have off := (flips 1 3).2 hit.1
    rw [hit.2] at off
    exact Bool.eq_false_iff.2 off
  · have on := (flips 61 26).2 (by decide +kernel)
    rw [show acrossTheEdges.display.pixel 61 26 = false by decide +kernel] at on
    exact Bool.ne_false_iff.1 on
  · have kept := mt (flips 63 26).1 (by decide +kernel)
    rw [not_not] at kept
    exact kept.trans (by decide +kernel)
  · exact flag.trans (if_pos ⟨1, 3, hit⟩)
  · exact same (.register 0xD) (by simp) (by simp) (by simp) (by simp [flagRegister])

end Machine

end ChipEight
