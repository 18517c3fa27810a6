/-
# Lit pixels

The pixels of a grid that are on, as a set of places. The flat view has each
place once, the columns of a row side by side and the rows one after the other,
so there are as many lit pixels as it has bits set. Flipping a pixel puts it in
the set or takes it out, and the count goes up or down by one.

Key definitions: `Grid.litPixels`.
Key theorems: `Grid.getElem?_flat`, `Grid.mem_litCells`, `Grid.image_litPixels`,
`Grid.card_litPixels`, `Grid.litCount_flip`.
-/
import ChipEight.Grid.Views
import Mathlib.Data.Finset.Card
import Mathlib.Data.Fintype.Prod
import Mathlib.Logic.Equiv.Fin.Basic

namespace ChipEight

namespace Grid

variable {w h : Nat}

/-! ### Places in the flat view -/

/-- The flat view has each pixel in its place. -/
theorem getElem?_flat (g : Grid w h) (x : Fin w) (y : Fin h) :
    g.flat[x.val + w * y.val]? = some (g.pixel x y) := by
  have place : x.val + w * y.val = y.val * w + x.val := by rw [Nat.mul_comm, Nat.add_comm]
  rw [flat, place, getElem?_blocks (fun _ => Vector.length_toList) x.isLt, Vector.getElem?_toList,
    Vector.getElem?_eq_getElem y.isLt, Option.bind_some, Vector.getElem?_toList,
    Vector.getElem?_eq_getElem x.isLt]
  rfl

/-- Each place of the flat view is that of a pixel. -/
theorem exists_place {i : Nat} (hi : i < h * w) :
    ∃ (x : Fin w) (y : Fin h), x.val = i % w ∧ y.val = i / w := by
  have positive : 0 < w := Nat.pos_of_lt_mul_left hi
  exact ⟨⟨i % w, Nat.mod_lt i positive⟩, ⟨i / w, Nat.div_lt_of_lt_mul (by rwa [Nat.mul_comm])⟩,
    rfl, rfl⟩

/-- No two pixels have one place. -/
theorem place_injective {p q : Fin w × Fin h}
    (same : p.1.val + w * p.2.val = q.1.val + w * q.2.val) : p = q := by
  have swapped : (p.2, p.1) = (q.2, q.1) := finProdFinEquiv.injective (Fin.ext same)
  exact Prod.ext (congrArg Prod.snd swapped) (congrArg Prod.fst swapped)

theorem mem_litCells {g : Grid w h} {i : Nat} : i ∈ g.litCells ↔ g.flat[i]? = some true := by
  simp [litCells, List.mem_filterMap, List.mem_zipIdx_iff_getElem?]

/-! ### The set of lit pixels -/

/-- The places of the pixels that are on. -/
def litPixels (g : Grid w h) : Finset (Fin w × Fin h) :=
  Finset.univ.filter fun p => g.pixel p.1 p.2

@[simp] theorem mem_litPixels {g : Grid w h} {p : Fin w × Fin h} :
    p ∈ g.litPixels ↔ g.pixel p.1 p.2 := by
  simp [litPixels]

/-- Set bits are counted by their places. -/
theorem count_true_eq_countP : ∀ bits : List Bool,
    bits.count true = (List.range bits.length).countP fun i => bits[i]? = some true
  | [] => rfl
  | b :: bits => by
    rw [List.length_cons, List.range_succ_eq_map, List.countP_cons, List.countP_map,
      List.count_cons, count_true_eq_countP bits]
    cases b <;> rfl

theorem litCount_eq_countP (g : Grid w h) :
    g.litCount = (List.range (h * w)).countP fun i => g.flat[i]? = some true := by
  rw [litCount, count_true_eq_countP, length_flat]

/-- The lit pixels have the places that are set in the flat view. -/
theorem image_litPixels (g : Grid w h) :
    g.litPixels.image (fun p => p.1.val + w * p.2.val) =
      {i ∈ Finset.range (h * w) | g.flat[i]? = some true} := by
  ext i
  simp only [Finset.mem_image, mem_litPixels, Finset.mem_filter, Finset.mem_range]
  constructor
  · rintro ⟨⟨x, y⟩, lit, rfl⟩
    have here := g.getElem?_flat x y
    have inside := (List.getElem?_eq_some_iff.1 here).1
    rw [length_flat] at inside
    exact ⟨inside, by rw [here, lit]⟩
  · rintro ⟨inside, lit⟩
    obtain ⟨x, y, hx, hy⟩ := exists_place inside
    have place : x.val + w * y.val = i := by rw [hx, hy, Nat.mod_add_div]
    rw [← place, getElem?_flat] at lit
    exact ⟨(x, y), Option.some.inj lit, place⟩

/-- **The lit pixels are counted.** -/
theorem card_litPixels (g : Grid w h) : g.litPixels.card = g.litCount := calc
  g.litPixels.card = (g.litPixels.image fun p => p.1.val + w * p.2.val).card :=
    (Finset.card_image_of_injective _ fun _ _ => place_injective).symm
  _ = {i ∈ Finset.range (h * w) | g.flat[i]? = some true}.card := by rw [image_litPixels]
  _ = (List.range (h * w)).countP fun i => g.flat[i]? = some true :=
    List.countP_eq_length_filter.symm
  _ = g.litCount := g.litCount_eq_countP.symm

/-! ### Flips -/

/-- Flipping a pixel puts it among the lit ones or takes it out. -/
theorem litPixels_flip (g : Grid w h) (x : Fin w) (y : Fin h) :
    (g.flip x y).litPixels =
      if g.pixel x y then g.litPixels.erase (x, y) else insert (x, y) g.litPixels := by
  ext ⟨c, r⟩
  by_cases here : (c, r) = (x, y)
  · obtain ⟨rfl, rfl⟩ := Prod.mk.inj here
    rw [mem_litPixels, pixel_flip]
    split_ifs with lit <;> simp [lit]
  · have apart : (decide (c = x) && decide (r = y)) = false := by
      simpa using here
    rw [mem_litPixels, pixel_flip, apart, Bool.xor_false]
    split_ifs <;> simp_all

/-- **A flip changes the count by one**: up, or down if the pixel was on. -/
theorem litCount_flip (g : Grid w h) (x : Fin w) (y : Fin h) :
    (g.flip x y).litCount + 2 * (g.pixel x y).toNat = g.litCount + 1 := by
  rw [← card_litPixels, ← card_litPixels, litPixels_flip]
  cases lit : g.pixel x y with
  | false =>
    have off : (x, y) ∉ g.litPixels := by simp [lit]
    rw [if_neg Bool.false_ne_true, Finset.card_insert_of_notMem off]
    rfl
  | true =>
    have on : (x, y) ∈ g.litPixels := by simp [lit]
    have := Finset.card_pos.2 ⟨_, on⟩
    rw [if_pos rfl, Finset.card_erase_of_mem on, Bool.toNat_true]
    omega

end Grid

end ChipEight
