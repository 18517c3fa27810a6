/-
# Views of a grid

A grid as bytes, eight pixels to a byte with the leftmost in the most
significant bit and each row filled up with zeros; as one row of pixels, in
which the pixel in column `x` and row `y` has the number `x + width * y`; and
as the count of its lit pixels.

Key definitions: `Grid.packed`, `Grid.flat`, `Grid.litCells`, `Grid.litCount`.
Key theorems: `Grid.length_packed`, `Grid.length_flat`, `Grid.getElem?_blocks`.
-/
import ChipEight.Grid

namespace ChipEight

namespace Grid

variable {w h : Nat}

/-- How many bytes a row of pixels takes. -/
abbrev rowSize (w : Nat) : Nat := (w + 7) / 8

/-- Eight pixels as a byte, the first most significant. -/
def packByte (bit : Nat → Bool) : UInt8 :=
  UInt8.ofNat ((List.range 8).foldl (fun byte k => 2 * byte + (bit k).toNat) 0)

/-- A row of pixels as bytes. -/
def packRow (row : Vector Bool w) : List UInt8 :=
  (List.range (rowSize w)).map fun j => packByte fun k => row[8 * j + k]?.getD false

/-- The pixels as bytes, row by row. -/
def packed (g : Grid w h) : List UInt8 := g.rows.toList.flatMap packRow

/-- The pixels one after the other. -/
def flat (g : Grid w h) : List Bool := g.rows.toList.flatMap Vector.toList

/-- The numbers of the lit pixels, ascending. -/
def litCells (g : Grid w h) : List Nat :=
  g.flat.zipIdx.filterMap fun (lit, i) => if lit then some i else none

/-- How many pixels are lit. -/
def litCount (g : Grid w h) : Nat := g.flat.count true

theorem length_packed (g : Grid w h) : g.packed.length = h * rowSize w := by
  have e : g.rows.toList.map (fun row => (packRow row).length) = List.replicate h (rowSize w) := by
    rw [List.eq_replicate_iff]
    simp [packRow]
  simp [packed, List.length_flatMap, e]

theorem length_flat (g : Grid w h) : g.flat.length = h * w := by
  have e : g.rows.toList.map (fun row => row.toList.length) = List.replicate h w := by
    rw [List.eq_replicate_iff]
    simp
  simp only [flat, List.length_flatMap, e]
  simp

/-- Where all blocks are equally long, a place is a block and a place in it. -/
theorem getElem?_blocks {α β : Type} {f : α → List β} {size : Nat}
    (equal : ∀ a, (f a).length = size) {j : Nat} (hj : j < size) : ∀ (as : List α) (y : Nat),
      (as.flatMap f)[y * size + j]? = as[y]?.bind fun a => (f a)[j]?
  | [], _ => rfl
  | a :: as, 0 => by
    have inside : j < (f a).length := by rwa [equal]
    rw [List.flatMap_cons, Nat.zero_mul, Nat.zero_add, List.getElem?_append_left inside]
    rfl
  | a :: as, y + 1 => by
    have place : (y + 1) * size + j = (f a).length + (y * size + j) := by
      rw [equal, Nat.succ_mul]
      omega
    rw [List.flatMap_cons, place, List.getElem?_append_right (Nat.le_add_right _ _),
      Nat.add_sub_cancel_left, getElem?_blocks equal hj as y, List.getElem?_cons_succ]

end Grid

end ChipEight
