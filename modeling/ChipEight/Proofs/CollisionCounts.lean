/-
# Collisions and the count of lit pixels

A sprite flips, in each of its rows, every column that a set bit falls on. Each
flip turns a pixel on or off, so the count of lit pixels grows by the number of
flips less two for each that turned a pixel off. Rows that come round to rows
drawn already are no exception: what they meet is what was left there.

That a collision is told means that there was such a flip, and so the count
tells it as well: it falls short of the number of flips.

Key definitions: `Stroke.flips`.
Key theorems: `Stroke.drawAll?_dots`, `Stroke.Dots.length_eq_flips`,
`Stroke.Dots.collisions`, `Stroke.collisions_balance_lit_pixels`.
-/
import ChipEight.Proofs.LitPixels
import ChipEight.Proofs.PixelByPixel

namespace ChipEight

namespace Stroke

variable {w h : Nat}

/-! ### The number of flips -/

/-- How many pixels a sprite flips: in each row one for each different column
that its set bits fall on. -/
def flips (w : Nat) (x : Int) (rows : List Int) : Nat :=
  (rows.map fun row => (columnsOf w x row).length).sum

/-- **However the pixels of a sprite are gone through**, there are as many. -/
theorem Dots.length_eq_flips {x y : Int} {rows : List Int} {dots : List Stroke}
    (goes : Dots w x y rows dots) : dots.length = flips w x rows := by
  induction goes with
  | nil => rfl
  | @cons y row rows cols dots once columns rest ih =>
    have same : (cols.map (· % (w : Int))).Perm (columnsOf w x row) :=
      (List.perm_ext_iff_of_nodup once (List.nodup_dedup _)).2 fun c =>
        (columns c).trans mem_columnsOf.symm
    have count := same.length_eq
    rw [List.length_map] at count
    rw [List.length_append, List.length_map, ih, count, flips, flips, List.map_cons, List.sum_cons]

/-- A stroke is a single pixel. -/
def IsDot : Stroke → Prop
  | dot .. => True
  | sprite .. => False

theorem Dots.isDot {x y : Int} {rows : List Int} {dots : List Stroke}
    (goes : Dots w x y rows dots) : ∀ s ∈ dots, s.IsDot := by
  induction goes with
  | nil => simp
  | cons _ _ _ ih =>
    intro s hs
    rcases List.mem_append.1 hs with here | later
    · obtain ⟨c, -, rfl⟩ := List.mem_map.1 here
      trivial
    · exact ih s later

/-! ### Flips one after the other -/

section

variable (hw : 0 < w) (hh : 0 < h)

include hw hh in
/-- Toggled pixels turn as many off as the count of lit pixels lacks. -/
theorem drawAll?_dots : ∀ {dots : List Stroke}, (∀ s ∈ dots, s.IsDot) → ∀ g : Grid w h,
    ∃ hits k, drawAll? dots g = .ok (hits, k) ∧ hits.length = dots.length ∧
      k.litCount + 2 * hits.count true = g.litCount + dots.length
  | [], _, g => ⟨[], g, rfl, rfl, rfl⟩
  | sprite .. :: _, single, _ => (single _ List.mem_cons_self).elim
  | dot c r :: dots, single, g => by
    have first : (dot c r).draw? g = .ok (g.toggle hw hh c r) :=
      draw?_of_placed hw hh (s := dot c r) trivial g
    have change : (g.toggle hw hh c r).2.litCount + 2 * (g.toggle hw hh c r).1.toNat =
        g.litCount + 1 := g.litCount_flip _ _
    obtain ⟨hits, k, rest, length, balance⟩ := drawAll?_dots
      (fun s hs => single s (List.mem_cons_of_mem _ hs)) (g.toggle hw hh c r).2
    refine ⟨(g.toggle hw hh c r).1 :: hits, k, ?_, congrArg (· + 1) length, ?_⟩
    · simp only [drawAll?, first, rest, bind, Except.bind, pure, Except.pure]
    · have told (hit : Bool) : (if hit == true then 1 else 0) = hit.toNat := by
        cases hit <;> rfl
      rw [List.length_cons, List.count_cons, told]
      omega

/-- **The pixels of a sprite account for what drawing it tells and leaves.** -/
theorem Dots.collisions {x : Int} (fits : ∀ k : Nat, k < 8 → Grid.fits64 (x + k)) {y : Int}
    {rows : List Int} {dots : List Stroke} (goes : Dots w x y rows dots) (g : Grid w h) :
    ∃ hits, drawAll? dots g = .ok (hits, (g.drawSprite hw hh x y (rows.map UInt8.ofInt)).2) ∧
      hits.length = flips w x rows ∧
      (g.drawSprite hw hh x y (rows.map UInt8.ofInt)).2.litCount + 2 * hits.count true =
        g.litCount + flips w x rows ∧
      ((g.drawSprite hw hh x y (rows.map UInt8.ofInt)).1 = true ↔ 0 < hits.count true) := by
  obtain ⟨hits, k, drawn, length, balance⟩ := drawAll?_dots hw hh goes.isDot g
  have each := goes.drawEach?_eq hw hh fits g
  rw [drawEach?, drawn] at each
  have told : (hits.any id, k) = g.drawSprite hw hh x y (rows.map UInt8.ofInt) :=
    Except.ok.inj each
  rw [goes.length_eq_flips] at length balance
  rw [← told]
  refine ⟨hits, drawn, length, balance, ?_⟩
  rw [List.count_pos_iff, List.any_eq_true]
  simp

end

/-- **The count of lit pixels accounts for collisions.** Let a sprite be drawn
on a grid of any size, with any number of rows, its eight columns in sixty-four
bits. Whichever way its pixels are toggled one after the other, row by row, there
is one flip in each row for every column that a set bit falls on, and the same
number of them turn a pixel off. The count grows by the number of flips less
twice that number, and a collision is told exactly if that is not zero. So none
is told exactly if the count grows by the number of flips. -/
theorem collisions_balance_lit_pixels (hw : 0 < w) (hh : 0 < h) {x : Int}
    (fits : ∀ k : Nat, k < 8 → Grid.fits64 (x + k)) (y : Int) (rows : List Int) (g : Grid w h) :
    ∃ hit k c, g.drawSprite? x y rows = .ok (hit, k) ∧
      Dots w x y rows (columnDots w x y rows) ∧
      (∀ dots, Dots w x y rows dots → ∃ hits, drawAll? dots g = .ok (hits, k) ∧
        hits.length = flips w x rows ∧ hits.count true = c) ∧
      (k.litCount : Int) = g.litCount + flips w x rows - 2 * c ∧
      (hit = true ↔ 0 < c) ∧ (hit = false ↔ k.litCount = g.litCount + flips w x rows) := by
  have placed : (sprite x y rows).Placed := InRange.placed (s := sprite x y rows) fits
  have drawn : g.drawSprite? x y rows = .ok (g.drawSprite hw hh x y (rows.map UInt8.ofInt)) :=
    draw?_of_placed hw hh placed g
  have columns := dots_columnDots w x y rows
  obtain ⟨hits, -, -, balance, collided⟩ := columns.collisions hw hh fits g
  refine ⟨_, _, hits.count true, drawn, columns, fun dots goes => ?_, by omega, collided, ?_⟩
  · obtain ⟨hits', all, length, balance', -⟩ := goes.collisions hw hh fits g
    exact ⟨hits', all, length, by omega⟩
  · rw [← Bool.not_eq_true, collided]
    omega

/-- On five columns and three rows the eight bits of the first row flip five
pixels, of which one was on. The fourth row comes round to it and meets a pixel
there in the one column that its two bits fall on. -/
theorem folded_sprite_collides_twice :
    (0 < 5 ∧ 0 < 3 ∧ ∀ k : Nat, k < 8 → Grid.fits64 (-3 + k)) ∧
      ∃ k, ((Grid.blank : Grid 5 3).flip 0 2).drawSprite? (-3) 2 [0x1FF, 0, 0x81, 0x42] =
          .ok (true, k) ∧
        flips 5 (-3) [0x1FF, 0, 0x81, 0x42] = 8 ∧ k.litCount = 1 + 8 - 2 * 2 := by
  have fits : ∀ k : Nat, k < 8 → Grid.fits64 (-3 + k) := by decide
  obtain ⟨hit, k, c, drawn, columns, each, balance, collided, -⟩ :=
    collisions_balance_lit_pixels (by decide) (by decide) fits 2 [0x1FF, 0, 0x81, 0x42]
      ((Grid.blank : Grid 5 3).flip 0 2)
  have eight : flips 5 (-3) [0x1FF, 0, 0x81, 0x42] = 8 := by decide
  have one : ((Grid.blank : Grid 5 3).flip 0 2).litCount = 1 := by decide
  obtain ⟨hits, all, -, twice⟩ := each _ columns
  obtain rfl : [true, false, false, false, false, false, false, true] = hits :=
    congrArg (fun r => (r.toOption.map Prod.fst).getD []) all
  obtain rfl : 2 = c := twice
  obtain rfl : hit = true := collided.2 (by decide)
  exact ⟨⟨by decide, by decide, fits⟩, k, drawn, eight, by omega⟩

end Stroke

end ChipEight
