/-
# Packed grids tell the pixels

Packed bytes are read bit by bit: of the row in which a pixel is, the byte that
its column falls in, and of that byte the bit that its column has there, the
most significant first. The bits of a packed byte are the pixels it was made of,
and all rows are packed into equally many bytes, so what is read is the grid
that was packed. That holds of every size, whatever fills up the last byte of a
row.

Key definitions: `Grid.bitAt`, `Grid.unpacked`.
Key theorems: `Grid.testBit_packByte`, `Grid.bitAt_packed`,
`Grid.unpacked_packed`, `Grid.packed_injective`.
-/
import ChipEight.Grid.Views
import Mathlib.Algebra.Group.Nat.Defs
import Mathlib.Logic.Function.Basic
import Mathlib.Tactic.Common

namespace ChipEight

namespace Grid

variable {w h : Nat}

/-! ### Bytes -/

/-- Some bits as a number, the first most significant. -/
def bitsValue (bit : Nat → Bool) (count : Nat) : Nat :=
  (List.range count).foldl (fun value k => 2 * value + (bit k).toNat) 0

theorem bitsValue_succ (bit : Nat → Bool) (count : Nat) :
    bitsValue bit (count + 1) = 2 * bitsValue bit count + (bit count).toNat := by
  rw [bitsValue, List.range_succ, List.foldl_append]
  rfl

theorem bitsValue_lt (bit : Nat → Bool) : ∀ count, bitsValue bit count < 2 ^ count
  | 0 => Nat.one_pos
  | count + 1 => by
    have ih := bitsValue_lt bit count
    have hb : (bit count).toNat ≤ 1 := Bool.toNat_le (bit count)
    rw [bitsValue_succ, Nat.pow_succ]
    omega

/-- The bits of the number are those it was made of. -/
theorem testBit_bitsValue (bit : Nat → Bool) : ∀ {count k : Nat}, k < count →
    (bitsValue bit count).testBit (count - 1 - k) = bit k
  | count + 1, k, hk => by
    have hb : (bit count).toNat ≤ 1 := Bool.toNat_le (bit count)
    rw [bitsValue_succ, Nat.add_sub_cancel]
    by_cases last : k = count
    · subst last
      rw [Nat.sub_self, Nat.testBit_zero]
      cases bit k <;> simp
    · have before : k < count := by omega
      have shifted : (2 * bitsValue bit count + (bit count).toNat) / 2 = bitsValue bit count := by
        omega
      have place : count - k = (count - 1 - k) + 1 := by omega
      rw [place, Nat.testBit_succ, shifted]
      exact testBit_bitsValue bit before

theorem testBit_packByte (bit : Nat → Bool) {k : Nat} (hk : k < 8) :
    (packByte bit).toNat.testBit (7 - k) = bit k := by
  have small : bitsValue bit 8 < 256 := bitsValue_lt bit 8
  have value : (packByte bit).toNat = bitsValue bit 8 := Nat.mod_eq_of_lt small
  rw [value]
  exact testBit_bitsValue bit hk

/-- A byte is told by its bits. -/
theorem eq_of_testBit {b c : UInt8}
    (same : ∀ k < 8, b.toNat.testBit (7 - k) = c.toNat.testBit (7 - k)) : b = c := by
  refine UInt8.toNat_inj.1 (Nat.eq_of_testBit_eq fun i => ?_)
  by_cases low : i < 8
  · have place : 7 - (7 - i) = i := by omega
    have bit := same (7 - i) (by omega)
    rwa [place] at bit
  · have high (b : UInt8) : b.toNat.testBit i = false := Nat.testBit_lt_two_pow <| calc
      b.toNat < 2 ^ 8 := b.toNat_lt
      _ ≤ 2 ^ i := Nat.pow_le_pow_right (by decide) (by omega)
    rw [high, high]

/-! ### Reading packed bytes -/

/-- The bit for a column and a row in bytes that are the rows of a grid. -/
def bitAt (w : Nat) (bytes : List UInt8) (x y : Nat) : Bool :=
  (bytes[y * rowSize w + x / 8]?.getD 0).toNat.testBit (7 - x % 8)

/-- The grid whose pixels are the bits of some bytes. -/
def unpacked (w h : Nat) (bytes : List UInt8) : Grid w h :=
  ⟨Vector.ofFn fun y => Vector.ofFn fun x => bitAt w bytes x y⟩

@[simp] theorem pixel_unpacked (bytes : List UInt8) (x : Fin w) (y : Fin h) :
    (unpacked w h bytes).pixel x y = bitAt w bytes x y := by
  simp [pixel, unpacked]

theorem length_packRow (row : Vector Bool w) : (packRow row).length = rowSize w := by
  rw [packRow, List.length_map, List.length_range]

/-- The bits of a packed grid are its pixels, and zeros after them. -/
theorem bitAt_packed (g : Grid w h) {x : Nat} (hx : x < 8 * rowSize w) (y : Fin h) :
    bitAt w g.packed x y = g.rows[y][x]?.getD false := by
  have hj : x / 8 < rowSize w := by omega
  have column : 8 * (x / 8) + x % 8 = x := Nat.div_add_mod x 8
  have byte : g.packed[y.val * rowSize w + x / 8]? =
      some (packByte fun k => g.rows[y][8 * (x / 8) + k]?.getD false) := by
    rw [packed, getElem?_blocks length_packRow hj, Vector.getElem?_toList,
      Vector.getElem?_eq_getElem y.isLt, Option.bind_some, packRow, List.getElem?_map,
      List.getElem?_range hj]
    rfl
  rw [bitAt, byte, Option.getD_some, testBit_packByte _ (Nat.mod_lt x (by decide)), column]

theorem bitAt_packed_pixel (g : Grid w h) (x : Fin w) (y : Fin h) :
    bitAt w g.packed x y = g.pixel x y := by
  have hx : x.val < 8 * rowSize w := by
    have := x.isLt
    rw [rowSize]
    omega
  rw [bitAt_packed g hx, Vector.getElem?_eq_getElem x.isLt]
  rfl

/-- **Packed bytes are read back.** -/
theorem unpacked_packed (g : Grid w h) : unpacked w h g.packed = g :=
  ext_pixel fun x y => by rw [pixel_unpacked, bitAt_packed_pixel]

/-- **A grid is told by its packed bytes.** -/
theorem packed_injective : Function.Injective (packed : Grid w h → List UInt8) :=
  Function.LeftInverse.injective unpacked_packed

end Grid

end ChipEight
