/-
# Packed bytes are the grid

What is read from packed bytes is the grid that was packed. A row whose width is
no multiple of eight ends in bits that belong to no pixel, and they are zero; any
bytes of the right number with zeros in those bits are those of a grid.

Packed or flat, a grid has as many bits set as it has lit pixels.

Key definitions: `Grid.ZeroPadded`, `Grid.bitCount`.
Key theorems: `Grid.eq_of_bitAt`, `Grid.packed_unpacked`, `Grid.bitCount_packed`,
`Grid.packed_and_flat_encode_the_pixels`.
-/
import ChipEight.Proofs.LitPixels
import ChipEight.Proofs.Packing
import Mathlib.Algebra.GroupWithZero.Nat

namespace ChipEight

namespace Grid

variable {w h : Nat}

/-! ### Zeros after each row -/

/-- The bits after the last column of each row are zero. -/
def ZeroPadded (w h : Nat) (bytes : List UInt8) : Prop :=
  ∀ x y, w ≤ x → x < 8 * rowSize w → y < h → bitAt w bytes x y = false

/-- The bytes of a grid are told by the bits of its rows. -/
theorem eq_of_bitAt {bytes bytes' : List UInt8} (length : bytes.length = h * rowSize w)
    (length' : bytes'.length = h * rowSize w)
    (same : ∀ x y, x < 8 * rowSize w → y < h → bitAt w bytes x y = bitAt w bytes' x y) :
    bytes = bytes' := by
  refine List.ext_getElem (length.trans length'.symm) fun i hi hi' => ?_
  -- byte `i` has the columns from `8 * j` on of row `y`
  obtain ⟨j, y, hj, hy⟩ := exists_place (length ▸ hi)
  have place : y.val * rowSize w + j.val = i := by
    rw [hj, hy, Nat.mul_comm, Nat.div_add_mod]
  refine eq_of_testBit fun k hk => ?_
  have bit := same (8 * j.val + k) y.val (by omega) y.isLt
  have column : (8 * j.val + k) / 8 = j.val ∧ (8 * j.val + k) % 8 = k := by omega
  rwa [bitAt, bitAt, column.1, column.2, place, List.getElem?_eq_getElem hi,
    List.getElem?_eq_getElem hi'] at bit

theorem zeroPadded_packed (g : Grid w h) : ZeroPadded w h g.packed := by
  intro x y after hx hy
  rw [bitAt_packed g hx ⟨y, hy⟩, Vector.getElem?_eq_none after, Option.getD_none]

/-- **Bytes with zeros after each row are the packed bytes of their grid.** -/
theorem packed_unpacked {bytes : List UInt8} (length : bytes.length = h * rowSize w)
    (padded : ZeroPadded w h bytes) : (unpacked w h bytes).packed = bytes := by
  refine eq_of_bitAt (length_packed _) length fun x y hx hy => ?_
  by_cases inside : x < w
  · rw [bitAt_packed_pixel _ ⟨x, inside⟩ ⟨y, hy⟩, pixel_unpacked]
  · rw [zeroPadded_packed _ x y (by omega) hx hy, padded x y (by omega) hx hy]

/-! ### Set bits -/

/-- How many bits of a byte are set. -/
def bitCount (b : UInt8) : Nat := (List.range 8).countP fun k => b.toNat.testBit k

theorem bitCount_packByte (bit : Nat → Bool) :
    bitCount (packByte bit) = (List.range 8).countP bit := by
  have mirrored : (List.range 8).reverse = (List.range 8).map (7 - ·) := by decide
  rw [bitCount, ← List.countP_reverse, mirrored, List.countP_map]
  refine List.countP_congr fun k hk => ?_
  rw [Function.comp_apply, testBit_packByte bit (List.mem_range.1 hk)]

/-- Places are counted block by block. -/
theorem countP_blocks (p : Nat → Bool) (size : Nat) : ∀ count,
    (List.range (size * count)).countP p =
      ((List.range count).map fun j => (List.range size).countP fun k => p (size * j + k)).sum
  | 0 => rfl
  | count + 1 => by
    rw [Nat.mul_succ, List.range_add, List.countP_append, List.countP_map,
      countP_blocks p size count, List.range_succ, List.map_append, List.sum_append]
    simp [Function.comp_def]

/-- Nothing is counted after the end of a row. -/
theorem countP_getElem? (row : Vector Bool w) {count : Nat} (enough : w ≤ count) :
    ((List.range count).countP fun x => row[x]?.getD false) = row.toList.count true := by
  obtain ⟨more, rfl⟩ := Nat.exists_eq_add_of_le enough
  have beyond : ((List.range more).countP fun x => row[w + x]?.getD false) = 0 := by
    rw [List.countP_eq_zero]
    intro x _
    rw [Vector.getElem?_eq_none (Nat.le_add_right w x), Option.getD_none]
    exact Bool.false_ne_true
  rw [List.range_add, List.countP_append, List.countP_map, Function.comp_def, beyond,
    count_true_eq_countP, Vector.length_toList]
  refine List.countP_congr fun x hx => ?_
  rw [Vector.getElem?_toList, Vector.getElem?_eq_getElem (List.mem_range.1 hx)]
  simp

theorem bitCount_packRow (row : Vector Bool w) :
    ((packRow row).map bitCount).sum = row.toList.count true := by
  have enough : w ≤ 8 * rowSize w := by rw [rowSize]; omega
  rw [← countP_getElem? row enough, countP_blocks, packRow, List.map_map]
  simp only [Function.comp_def, bitCount_packByte]

/-- **A packed grid has a bit set for each lit pixel.** -/
theorem bitCount_packed (g : Grid w h) : (g.packed.map bitCount).sum = g.litCount := by
  rw [packed, List.map_flatMap, List.flatMap_def, List.sum_flatten, List.map_map, litCount, flat,
    List.count_flatMap]
  exact congrArg List.sum (List.map_congr_left fun row _ => bitCount_packRow row)

/-! ### The views -/

/-- **Packed and flat views encode the pixels.** On a grid of any size the packed
bytes have the right number; in the row of a pixel they have its bit where its
column falls, and zeros after the last column, and so they are read back. They
are different for different grids, and any bytes of that number with zeros in
those places are the packed bytes of a grid. The flat view has the pixels in
their places, and the lit pixels are as many as the bits that are set in the
packed bytes and as those that are set in the flat view. -/
theorem packed_and_flat_encode_the_pixels :
    (∀ g : Grid w h,
      (g.packed.length = h * rowSize w ∧
        (∀ (x : Fin w) (y : Fin h), bitAt w g.packed x y = g.pixel x y) ∧
        ZeroPadded w h g.packed ∧ unpacked w h g.packed = g) ∧
      (g.flat.length = h * w ∧
        (∀ i < h * w, ∃ (x : Fin w) (y : Fin h), x.val = i % w ∧ y.val = i / w ∧
          g.flat[i]? = some (g.pixel x y)) ∧
        ∀ i, i ∈ g.litCells ↔ g.flat[i]? = some true) ∧
      g.litCount = g.litPixels.card ∧ g.litCount = (g.packed.map bitCount).sum ∧
      g.litCount = (List.range (h * w)).countP fun i => g.flat[i]? = some true) ∧
    Function.Injective (packed : Grid w h → List UInt8) ∧
    ∀ bytes : List UInt8, (∃ g : Grid w h, g.packed = bytes) ↔
      bytes.length = h * rowSize w ∧ ZeroPadded w h bytes := by
  refine ⟨fun g => ⟨⟨length_packed g, bitAt_packed_pixel g, zeroPadded_packed g,
    unpacked_packed g⟩, ⟨length_flat g, fun i hi => ?_, fun _ => mem_litCells⟩,
    (card_litPixels g).symm, (bitCount_packed g).symm, litCount_eq_countP g⟩, packed_injective,
    fun bytes => ⟨?_, ?_⟩⟩
  · obtain ⟨x, y, hx, hy⟩ := exists_place hi
    refine ⟨x, y, hx, hy, ?_⟩
    rw [← getElem?_flat, hx, hy, Nat.mod_add_div]
  · rintro ⟨g, rfl⟩
    exact ⟨length_packed g, zeroPadded_packed g⟩
  · rintro ⟨length, padded⟩
    exact ⟨unpacked w h bytes, packed_unpacked length padded⟩

/-- Ten columns take two bytes a row. Of the second byte only the two upper bits
belong to pixels. -/
theorem ten_columns_are_padded :
    (∃ g : Grid 10 2, g.packed = [0xA0, 0x40, 0x01, 0xC0] ∧ g.litCount = 6) ∧
      ¬∃ g : Grid 10 2, g.packed = [0xA0, 0x40, 0x01, 0xE0] := by
  obtain ⟨views, -, image⟩ := packed_and_flat_encode_the_pixels (w := 10) (h := 2)
  have padding (bytes : List UInt8) : ZeroPadded 10 2 bytes ↔
      ∀ x < 16, ∀ y < 2, 10 ≤ x → bitAt 10 bytes x y = false :=
    ⟨fun padded x hx y hy after => padded x y after hx hy,
      fun padded x y after hx hy => padded x hx y hy after⟩
  constructor
  · obtain ⟨g, packs⟩ := (image [0xA0, 0x40, 0x01, 0xC0]).2 ⟨rfl, (padding _).2 (by decide)⟩
    refine ⟨g, packs, ?_⟩
    rw [(views g).2.2.2.1, packs]
    decide
  · rw [image, padding]
    decide

end Grid

end ChipEight
