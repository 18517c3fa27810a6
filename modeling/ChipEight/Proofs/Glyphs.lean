/-
# Drawing a digit

The picture of a digit is told three times: as a bitmap, as the five bytes of the
font that `FX29` points to, and as what `DXY5` flips on the display. With the font
where it belongs the three agree: the set bits of a byte of the font are the pixels
of a row of the bitmap, since the low four bits are never set; so the cells that the
sprite addresses are those that the pixels of the bitmap fall on.

A register may hold more than a digit. Then `FX29` points beyond the font, but never
so far that a sprite there would not lie in memory.

Key definitions: `Font.glyph`, `Font.pixelAt`, `Machine.FontIntact`,
`Machine.FallsOn`.
Key theorems: `Font.glyphBitmap_of_digit`, `Font.pixelAt_glyph`,
`Machine.addresses_iff_fallsOn`, `Machine.step_of_ldF`,
`Machine.digits_are_drawn_as_glyphs`.
-/
import ChipEight.Proofs.Loading
import ChipEight.Proofs.Snapshots
import ChipEight.Proofs.Sprites
import ChipEight.Proofs.WordPrograms

namespace ChipEight

/-! ### Pixels of a glyph -/

namespace Font

variable {d i k : Nat}

/-- The pixels of the glyph of a digit, row by row. -/
def glyph (d : Nat) : List (List Bool) := ((bytes.drop (5 * d)).take 5).map rowPixels

/-- A pixel of a bitmap; there is none beyond its rows and columns. -/
def pixelAt (bitmap : List (List Bool)) (row column : Nat) : Bool :=
  (bitmap[row]?.bind (·[column]?)).getD false

theorem glyphAddress_of_digit (digit : d < 16) : glyphAddress d = .ok (5 * d) := by
  have range : (0 : Int) ≤ d ∧ (d : Int) < Dimensions.glyphCount := by
    simp only [Dimensions.glyphCount]
    omega
  rw [glyphAddress, if_pos range, Int.toNat_natCast, Dimensions.fontBase, Nat.zero_add,
    Nat.mul_comm]

theorem glyphBitmap_of_digit (digit : d < 16) : glyphBitmap d = .ok (glyph d) := by
  rw [glyphBitmap, glyphRows, glyphAddress_of_digit digit]
  rfl

/-- The right half of a row is empty. -/
theorem testBit_of_right {row : UInt8} (font : row ∈ bytes) (right : 4 ≤ k) (inside : k < 8) :
    row.toNat.testBit (7 - k) = false := by
  have low : row.toNat &&& 2 ^ 4 - 1 = 0 := congrArg UInt8.toNat (low_bits_zero row font)
  have bit : (row.toNat &&& 2 ^ 4 - 1).testBit (7 - k) = false := by rw [low, Nat.zero_testBit]
  have small : 7 - k < 4 := by omega
  rwa [Nat.testBit_and, Nat.testBit_two_pow_sub_one, decide_eq_true small, Bool.and_true] at bit

/-- **The pixels of a glyph are bits of the font.** -/
theorem pixelAt_glyph {row : UInt8} (found : bytes[5 * d + i]? = some row) (high : i < 5)
    (inside : k < 8) : pixelAt (glyph d) i k = row.toNat.testBit (7 - k) := by
  have rows : (glyph d)[i]? = some (rowPixels row) := by
    rw [glyph, List.getElem?_map, List.getElem?_take_of_lt high, List.getElem?_drop, found]
    rfl
  rw [pixelAt, rows, Option.bind_some, rowPixels, List.getElem?_map]
  by_cases left : k < 4
  · rw [List.getElem?_range left]
    rfl
  · rw [List.getElem?_eq_none (by rw [List.length_range]; omega),
      testBit_of_right (List.mem_of_getElem? found) (by omega) inside]
    rfl

theorem lt_of_pixelAt_glyph (on : pixelAt (glyph d) i k) : k < 4 := by
  by_contra beyond
  suffices off : pixelAt (glyph d) i k = false from Bool.eq_false_iff.1 off on
  rw [pixelAt, glyph, List.getElem?_map]
  cases ((bytes.drop (5 * d)).take 5)[i]? with
  | none => rfl
  | some row =>
    rw [Option.map_some, Option.bind_some, rowPixels, List.getElem?_eq_none]
    · rfl
    · rw [List.length_map, List.length_range]
      omega

end Font

namespace Machine

open Dimensions

variable {σ : Type} {m m' : Machine σ} {x y d : Fin 16} {digit : Nat}

/-! ### The font in memory -/

/-- The font is where it belongs. -/
def FontIntact (m : Machine σ) : Prop :=
  ∀ a : Fin 4096, a.val < 80 → Font.bytes[a.val]? = some (m.memory.get a)

theorem FontIntact.byteAt {a : Nat} (intact : m.FontIntact) (font : a < 80) :
    Font.bytes[a]? = some (Memory.byteAt a m.memory) := by
  have inside : a < 4096 := by omega
  rw [Memory.byteAt_eq inside]
  exact intact ⟨a, inside⟩ font

theorem fontIntact_powerOn (config : Config) (random : σ) : (powerOn config random).FontIntact :=
  (fresh_powerOn config random).font

/-- Programs leave the font alone. -/
theorem FontIntact.of_load {p : List UInt8} (intact : m.FontIntact)
    (loaded : m.load p = .done () m') : m'.FontIntact := by
  intro a font
  rw [byte_of_load loaded (.inl (by omega)), intact a font]

/-- A pixel of a bitmap falls on a cell of the display if its columns are counted
from the value of `y` and its rows from that of `x`. Both go round. -/
def FallsOn (bitmap : List (List Bool)) (x y : Fin 16) (m : Machine σ) (c : Fin 64) (r : Fin 32) :
    Prop :=
  ∃ i < 5, ∃ k < 4, c.val = ((m.reg y).toNat + k) % 64 ∧ r.val = ((m.reg x).toNat + i) % 32 ∧
    Font.pixelAt bitmap i k

instance (bitmap : List (List Bool)) (c : Fin 64) (r : Fin 32) :
    Decidable (m.FallsOn bitmap x y c r) :=
  inferInstanceAs (Decidable (∃ i < 5, ∃ k < 4, _ ∧ _ ∧ _))

/-- **The sprite of a digit addresses what its bitmap falls on.** -/
theorem addresses_iff_fallsOn (intact : m.FontIntact) (small : digit < 16)
    (points : m.index = 5 * digit) {c : Fin 64} {r : Fin 32} :
    m.Addresses x y 5 c r ↔ m.FallsOn (Font.glyph digit) x y c r := by
  have pixel {i k : Nat} (hi : i < 5) (hk : k < 8) : Font.pixelAt (Font.glyph digit) i k =
      (Memory.byteAt (m.index + i).toNat m.memory).toNat.testBit (7 - k) := by
    have place : (m.index + i).toNat = 5 * digit + i := by omega
    rw [place]
    exact Font.pixelAt_glyph (intact.byteAt (by omega)) hi hk
  constructor
  · rintro ⟨i, hi, k, hk, column, row, set⟩
    rw [← pixel hi hk] at set
    exact ⟨i, hi, k, Font.lt_of_pixelAt_glyph set, column, row, set⟩
  · rintro ⟨i, hi, k, hk, column, row, on⟩
    rw [pixel hi (by omega)] at on
    exact ⟨i, hi, k, by omega, column, row, on⟩

/-! ### Pointing to a glyph -/

/-- The machine with the index register where the glyph of a register's value would
be. -/
def pointed (d : Fin 16) (m : Machine σ) : Machine σ :=
  { m with index := fontBase + (m.reg d).toNat * glyphHeight }

theorem index_pointed : (m.pointed d).index = 5 * (m.reg d).toNat := by
  simp only [pointed, fontBase, glyphHeight]
  omega

/-- Sprites there are in memory. -/
theorem spriteInside_of_index {n : Fin 16} {v : UInt8} (points : m.index = 5 * v.toNat) :
    m.SpriteInside n.val := by
  have byte := v.toNat_lt
  exact .inr (by omega)

theorem sameAt_pointed {c : Cell} (index : c ≠ .index) : m.SameAt (m.pointed d) c := by
  cases c <;> first | rfl | contradiction

variable [RandomSource σ] {w v : UInt16}

/-- `FX29` points to a glyph. -/
theorem step_of_ldF (here : m.WordAt w) (word : w.toNat = 0xF029 + 0x100 * d.val) :
    m.step = .done ⟨w, .ldF⟩ (m.past.pointed d).counted := by
  obtain ⟨family, rfl, third, last⟩ := Word.digits_of_toNat (w := w) (f := 0xF) (x := d) (y := 2)
    (n := 9) (by rw [word]; omega)
  have byte : (Word.nn w).toNat = 0x29 := by rw [Word.toNat_nn, third, last]; rfl
  have next : m.Next ⟨w, .ldF⟩ := ⟨here, congrArg Fin.val family, byte⟩
  rw [step_of_next next]
  rfl

/-- `DXY5` draws the digit whose glyph is pointed to. -/
theorem step_of_drw_glyph (here : m.WordAt v)
    (word : v.toNat = 0xD005 + 0x100 * x.val + 0x10 * y.val) (intact : m.FontIntact)
    (small : digit < 16) (points : m.index = 5 * digit) :
    ∃ m', m.step = .done ⟨v, .drw⟩ m' ∧
      (∀ c r, m'.display.pixel c r =
        (m.display.pixel c r ^^ decide (m.FallsOn (Font.glyph digit) x y c r))) ∧
      m'.reg flagRegister =
        (if ∃ c r, m.FallsOn (Font.glyph digit) x y c r ∧ m.display.pixel c r then 1 else 0) ∧
      m'.index = m.index := by
  have inside : m.past.SpriteInside 5 := by
    refine .inr (show 0 ≤ m.index ∧ m.index + 5 ≤ 4096 from ?_)
    omega
  have word' : v.toNat = 0xD000 + 0x100 * x.val + 0x10 * y.val + (5 : Fin 16).val := by
    show v.toNat = 0xD000 + 0x100 * x.val + 0x10 * y.val + 5
    omega
  have same {c : Fin 64} {r : Fin 32} :
      m.past.Addresses x y 5 c r ↔ m.FallsOn (Font.glyph digit) x y c r :=
    addresses_iff_fallsOn (m := m.past) intact small points
  obtain ⟨flips, hits⟩ := sprite_eq (x := x) (y := y) inside (by decide)
  simp only [same] at flips hits
  refine ⟨_, step_of_drw here word' inside, flips, ?_, rfl⟩
  exact (flag_drawn x y 5 m.past).trans (if_congr hits rfl rfl)

/-- **A digit is drawn as its glyph.** `FD29` points to five bytes for each unit of
register `D`, and changes nothing else. Whatever the register holds, a sprite drawn
from there lies in memory. If it holds a digit and the font is intact, that is the
address of its glyph, and `DAB5`, wherever it is fetched from, flips the cells that
the pixels of its bitmap fall on and no others, and tells whether one of them was
on; on a blank display they alone are then on. -/
theorem digits_are_drawn_as_glyphs (here : m.WordAt w)
    (word : w.toNat = 0xF029 + 0x100 * d.val) :
    ∃ m₁, m.step = .done ⟨w, .ldF⟩ m₁ ∧ m₁.index = 5 * (m.reg d).toNat ∧ m₁.pc = m.pc + 2 ∧
      (∀ c : Cell, c ≠ .pc → c ≠ .count → c ≠ .index → m.SameAt m₁ c) ∧
      (∀ (a : Int) (v : UInt16) (x y n : Fin 16), { m with pc := a }.WordAt v →
        v.toNat = 0xD000 + 0x100 * x.val + 0x10 * y.val + n.val →
          ∃ m₂, { m₁ with pc := a }.step = .done ⟨v, .drw⟩ m₂) ∧
      ((m.reg d).toNat < 16 → m.FontIntact → ∃ bitmap,
        Font.glyphAddress (m.reg d).toNat = .ok (5 * (m.reg d).toNat) ∧
        Font.glyphBitmap (m.reg d).toNat = .ok bitmap ∧
        ∀ (a : Int) (v : UInt16) (x y : Fin 16), { m with pc := a }.WordAt v →
          v.toNat = 0xD005 + 0x100 * x.val + 0x10 * y.val →
            ∃ m₂ : Machine σ, { m₁ with pc := a }.step = .done ⟨v, .drw⟩ m₂ ∧
              (∀ c r, m₂.display.pixel c r ≠ m.display.pixel c r ↔ m.FallsOn bitmap x y c r) ∧
              m₂.reg flagRegister =
                (if ∃ c r, m.FallsOn bitmap x y c r ∧ m.display.pixel c r then 1 else 0) ∧
              m₂.index = 5 * (m.reg d).toNat ∧
              (m.display = Grid.blank →
                ∀ c r, m₂.display.pixel c r ↔ m.FallsOn bitmap x y c r)) := by
  let m₁ := (m.past.pointed d).counted
  have points : m₁.index = 5 * (m.reg d).toNat := index_pointed (m := m.past)
  refine ⟨m₁, step_of_ldF here word, points, rfl, fun c pc count index => ?_,
    fun a v x y n there word' => ?_, fun small intact => ?_⟩
  · exact ((sameAt_past pc m).trans (sameAt_pointed index)).trans (sameAt_counted count _)
  · exact ⟨_, step_of_drw (m := { m₁ with pc := a }) there word' (spriteInside_of_index points)⟩
  · refine ⟨_, Font.glyphAddress_of_digit small, Font.glyphBitmap_of_digit small,
      fun a v x y there word' => ?_⟩
    obtain ⟨m₂, drawn, flips, flag, index⟩ :=
      step_of_drw_glyph (m := { m₁ with pc := a }) there word' intact small points
    have same {bitmap : List (List Bool)} {c : Fin 64} {r : Fin 32} :
        ({ m₁ with pc := a } : Machine σ).FallsOn bitmap x y c r ↔ m.FallsOn bitmap x y c r := .rfl
    simp only [same] at flips flag
    have pixel (c : Fin 64) (r : Fin 32) : m₂.display.pixel c r = (m.display.pixel c r ^^
        decide (m.FallsOn (Font.glyph (m.reg d).toNat) x y c r)) := flips c r
    refine ⟨m₂, drawn, fun c r => ?_, flag, index.trans points, fun blank c r => ?_⟩
    · rw [pixel]
      cases m.display.pixel c r <;> simp
    · rw [pixel, blank, Grid.pixel_blank, Bool.false_xor, decide_eq_true_iff]

/-- A machine that is to draw a three across a corner of the display. The register
of its columns is the flag, and one of its cells is on, as on the machine across the
edges. -/
def threeAtACorner : Machine Supply :=
  { (switchedOn.load (Instruction.encodeWords [0xF329, 0xDEF5])).2 with
    registers := #v[0, 0, 0, 3, 0, 0, 0, 0, 0, 0, 0, 0, 0, 0, 31, 63]
    display := acrossTheEdges.display }

/-- That cell is turned off, and the corner of the three is turned on. -/
theorem threeAtACorner_is_drawn :
    threeAtACorner.WordAt 0xF329 ∧ (0xF329 : UInt16).toNat = 0xF029 + 0x100 * (0x3 : Fin 16).val ∧
      threeAtACorner.FontIntact ∧
      ∃ m₁ m₂ : Machine Supply, threeAtACorner.step = .done ⟨0xF329, .ldF⟩ m₁ ∧ m₁.index = 15 ∧
        m₁.step = .done ⟨0xDEF5, .drw⟩ m₂ ∧ m₂.display.pixel 1 3 = false ∧
        m₂.display.pixel 63 31 = true ∧ m₂.reg 0xF = 1 := by
  have loaded := (load_encodeWords_iff switchedOn [0xF329, 0xDEF5]).2 ⟨by decide, rfl⟩
  have held : threeAtACorner.HoldsFrom threeAtACorner.pc [0xF329, 0xDEF5] :=
    (holdsFrom_load loaded).of_memory rfl
  have here : threeAtACorner.WordAt 0xF329 := held.head
  have intact : threeAtACorner.FontIntact := by
    have kept := FontIntact.of_load (fontIntact_powerOn _ _) loaded
    exact kept
  obtain ⟨m₁, first, index, pc, -, -, draws⟩ :=
    digits_are_drawn_as_glyphs (d := 0x3) here (by decide)
  obtain ⟨bitmap, -, told, draws⟩ := draws (by decide) intact
  obtain rfl : Font.glyph 3 = bitmap :=
    Except.ok.inj ((Font.glyphBitmap_of_digit (by decide)).symm.trans told)
  have there : ({ threeAtACorner with pc := m₁.pc } : Machine Supply).WordAt 0xDEF5 := by
    rw [pc]
    have rest : ({ threeAtACorner with pc := threeAtACorner.pc + 2 } : Machine Supply).HoldsFrom
        (threeAtACorner.pc + 2) [0xDEF5] := held.tail.of_memory rfl
    exact rest.head
  obtain ⟨m₂, second, flips, flag, -⟩ := draws m₁.pc 0xDEF5 0xE 0xF there (by decide)
  have falls : threeAtACorner.FallsOn (Font.glyph 3) 0xE 0xF 1 3 :=
    ⟨4, by decide, 2, by decide, rfl, rfl, rfl⟩
  have pixel (c : Fin 64) (r : Fin 32) :
      threeAtACorner.display.pixel c r = (decide (c = 1) && decide (r = 3)) := by
    show (Grid.blank.flip 1 3).pixel c r = _
    rw [Grid.pixel_flip, Grid.pixel_blank, Bool.false_xor]
  have lit : threeAtACorner.display.pixel 1 3 := pixel 1 3
  refine ⟨here, by decide, intact, m₁, m₂, first, index, second, ?_, ?_,
    flag.trans (if_pos ⟨1, 3, falls, lit⟩)⟩
  · have off := (flips 1 3).2 falls
    rw [lit] at off
    exact Bool.eq_false_iff.2 off
  · have on := (flips 63 31).2 ⟨0, by decide, 0, by decide, rfl, rfl, rfl⟩
    rw [pixel] at on
    exact Bool.ne_false_iff.1 on

end Machine

end ChipEight
