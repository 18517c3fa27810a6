/-
# Drawing is exclusive or

Whatever is drawn on a grid, a figure is flipped that the grid has no part in:
the one that the same strokes leave on a blank grid. Exclusive or is
associative and commutative and every grid is its own inverse, so strokes may
be drawn in any order, and a stroke that is drawn twice is gone.

A stroke has its place on a grid of at least one column and one row if its
first column fits in sixty-four bits; pixels by themselves have theirs
anywhere. If all eight columns of a sprite fit, the sprite may be moved by whole
grids.

Key definitions: `Grid.xor`, `Stroke`, `Stroke.draw?`, `Stroke.drawAll?`,
`Stroke.figure`, `Stroke.figures`.
Key theorems: `Grid.drawSprite_snd`, `Stroke.drawAll?_of_placed`,
`Stroke.figures_perm`, `Stroke.draw_shift`,
`Stroke.drawing_commutes_and_cancels`.
-/
import ChipEight.Grid
import Mathlib.Tactic.Common

namespace ChipEight

namespace Grid

variable {w h : Nat}

/-! ### Exclusive or -/

/-- The grid with the pixels that another has on flipped. -/
def xor (g k : Grid w h) : Grid w h :=
  ⟨Vector.ofFn fun y => Vector.ofFn fun x => g.pixel x y ^^ k.pixel x y⟩

@[simp] theorem pixel_xor (g k : Grid w h) (x : Fin w) (y : Fin h) :
    (g.xor k).pixel x y = (g.pixel x y ^^ k.pixel x y) := by
  simp [pixel, xor]

theorem xor_comm (g k : Grid w h) : g.xor k = k.xor g :=
  ext_pixel fun x y => by rw [pixel_xor, pixel_xor, Bool.xor_comm]

theorem xor_assoc (g k l : Grid w h) : (g.xor k).xor l = g.xor (k.xor l) :=
  ext_pixel fun x y => by simp only [pixel_xor, Bool.xor_assoc]

@[simp] theorem xor_self (g : Grid w h) : g.xor g = blank :=
  ext_pixel fun x y => by rw [pixel_xor, Bool.xor_self, pixel_blank]

@[simp] theorem xor_blank (g : Grid w h) : g.xor blank = g :=
  ext_pixel fun x y => by rw [pixel_xor, pixel_blank, Bool.xor_false]

theorem xor_left_comm (g k l : Grid w h) : g.xor (k.xor l) = k.xor (g.xor l) := by
  rw [← xor_assoc, xor_comm g k, xor_assoc]

/-- What is flipped twice is as before. -/
theorem xor_xor_self (g k : Grid w h) : g.xor (g.xor k) = k := by
  rw [← xor_assoc, xor_self, xor_comm, xor_blank]

/-! ### Pixels and sprites -/

theorem flip_eq_xor (g : Grid w h) (x : Fin w) (y : Fin h) :
    g.flip x y = g.xor (blank.flip x y) :=
  ext_pixel fun c r => by simp [pixel_flip]

theorem drawRow_snd (cs : List (Fin w)) (y : Fin h) (g : Grid w h) :
    (drawRow cs y g).2 = g.xor (drawRow cs y blank).2 :=
  ext_pixel fun c r => by simp [pixel_drawRow]

theorem drawRow_nil (y : Fin h) (g : Grid w h) : drawRow [] y g = (false, g) := by
  refine Prod.ext rfl (ext_pixel fun c r => ?_)
  rw [pixel_drawRow, List.contains_nil, Bool.false_and, Bool.xor_false]

section

variable (hw : 0 < w) (hh : 0 < h) (x : Int)

theorem drawSprite_cons (y : Int) (row : UInt8) (rows : List UInt8) (g : Grid w h) :
    drawSprite hw hh x y (row :: rows) g =
      ((drawRow (columns w hw x row) (wrap h hh y) g).1 ||
        (drawSprite hw hh x (y + 1) rows (drawRow (columns w hw x row) (wrap h hh y) g).2).1,
        (drawSprite hw hh x (y + 1) rows (drawRow (columns w hw x row) (wrap h hh y) g).2).2) := rfl

/-- **A sprite flips a figure**, whatever it is drawn on. -/
theorem drawSprite_snd : ∀ (y : Int) (rows : List UInt8) (g : Grid w h),
    (drawSprite hw hh x y rows g).2 = g.xor (drawSprite hw hh x y rows blank).2
  | _, [], g => (xor_blank g).symm
  | y, row :: rows, g => by
    let first (g : Grid w h) := (drawRow (columns w hw x row) (wrap h hh y) g).2
    let rest (g : Grid w h) := (drawSprite hw hh x (y + 1) rows g).2
    calc rest (first g) = (first g).xor (rest blank) := drawSprite_snd (y + 1) rows (first g)
      _ = (g.xor (first blank)).xor (rest blank) := by rw [show first g = _ from drawRow_snd ..]
      _ = g.xor ((first blank).xor (rest blank)) := xor_assoc ..
      _ = g.xor (rest (first blank)) := by
        rw [show rest (first blank) = _ from drawSprite_snd (y + 1) rows (first blank)]

theorem columns_zero : columns w hw x 0 = [] := by
  simp [columns]

/-- Rows without set bits draw nothing. -/
theorem drawSprite_of_zeros : ∀ (y : Int) (rows : List UInt8) (g : Grid w h),
    (rows.all fun row => row == 0) → drawSprite hw hh x y rows g = (false, g)
  | _, [], _, _ => rfl
  | y, row :: rows, g, zeros => by
    simp only [List.all_cons, Bool.and_eq_true, beq_iff_eq] at zeros
    obtain ⟨rfl, zeros⟩ := zeros
    simp only [drawSprite_cons, columns_zero, drawRow_nil, drawSprite_of_zeros (y + 1) rows g zeros,
      Bool.or_false]

/-! ### Moves by whole grids -/

theorem signed64_of_fits {i : Int} (fits : fits64 i) : signed64 i = i := by
  simp only [fits64, Bool.and_eq_true, decide_eq_true_eq] at fits
  rw [signed64, Int.bmod_eq_of_le] <;> omega

theorem columns_add_mul {x : Int} (row : UInt8) (i : Int) (fits : ∀ k : Nat, k < 8 → fits64 (x + k))
    (fits' : ∀ k : Nat, k < 8 → fits64 (x + i * w + k)) :
    columns w hw (x + i * w) row = columns w hw x row := by
  refine List.map_congr_left fun k hk => ?_
  have lt : k < 8 := List.mem_range.1 (List.mem_filter.1 hk).1
  rw [signed64_of_fits (fits k lt), signed64_of_fits (fits' k lt), Int.add_right_comm,
    wrap_add_mul]

theorem drawSprite_add_mul {x : Int} (i j : Int) (fits : ∀ k : Nat, k < 8 → fits64 (x + k))
    (fits' : ∀ k : Nat, k < 8 → fits64 (x + i * w + k)) :
    ∀ (y : Int) (rows : List UInt8) (g : Grid w h),
      drawSprite hw hh (x + i * w) (y + j * h) rows g = drawSprite hw hh x y rows g
  | _, [], _ => rfl
  | y, row :: rows, g => by
    rw [drawSprite_cons, drawSprite_cons, columns_add_mul hw row i fits fits', wrap_add_mul,
      Int.add_right_comm, drawSprite_add_mul i j fits fits' (y + 1) rows]

end

end Grid

/-! ### Strokes -/

/-- What can be drawn on a grid at one go. -/
inductive Stroke where
  /-- A single pixel. -/
  | dot (x y : Int)
  /-- A sprite with these rows, the first column and the first row given. -/
  | sprite (x y : Int) (rows : List Int)

namespace Stroke

variable {w h : Nat}

/-- The grid with the stroke drawn, and whether a pixel was turned off. -/
def draw? : Stroke → Grid w h → Except GridError (Bool × Grid w h)
  | dot x y, g => g.toggle? x y
  | sprite x y rows, g => g.drawSprite? x y rows

/-- The grid with strokes drawn one after the other, and for each whether a
pixel was turned off. -/
def drawAll? : List Stroke → Grid w h → Except GridError (List Bool × Grid w h)
  | [], g => .ok ([], g)
  | s :: ss, g => do
    let (hit, g) ← s.draw? g
    let (hits, g) ← drawAll? ss g
    pure (hit :: hits, g)

/-- The first column fits in sixty-four bits, for a sprite. -/
def Placed : Stroke → Prop
  | dot .. => True
  | sprite x .. => Grid.fits64 x

/-- All eight columns fit in sixty-four bits, for a sprite. -/
def InRange : Stroke → Prop
  | dot .. => True
  | sprite x .. => ∀ k : Nat, k < 8 → Grid.fits64 (x + k)

theorem InRange.placed {s : Stroke} (fits : s.InRange) : s.Placed := by
  cases s with
  | dot => trivial
  | sprite x y rows =>
    have first := fits 0 (by omega)
    rwa [Int.natCast_zero, Int.add_zero] at first

/-- The stroke moved by so many grids to the right and so many down. -/
def shift (w h : Nat) (i j : Int) : Stroke → Stroke
  | dot x y => dot (x + i * w) (y + j * h)
  | sprite x y rows => sprite (x + i * w) (y + j * h) rows

section

variable (hw : 0 < w) (hh : 0 < h)

/-- The grid with a stroke drawn that has its place. -/
def draw : Stroke → Grid w h → Bool × Grid w h
  | dot x y, g => g.toggle hw hh x y
  | sprite x y rows, g => g.drawSprite hw hh x y (rows.map UInt8.ofInt)

theorem draw?_of_placed {s : Stroke} (placed : s.Placed) (g : Grid w h) :
    s.draw? g = .ok (s.draw hw hh g) := by
  cases s with
  | dot x y => simp only [draw?, Grid.toggle?, hw, hh, ↓reduceDIte, draw]
  | sprite x y rows =>
    have fits : Grid.fits64 x = true := placed
    simp only [draw?, Grid.drawSprite?, draw]
    split_ifs with zeros
    · rw [Grid.drawSprite_of_zeros hw hh x y _ g zeros]
    · rfl

/-- What a stroke leaves on a blank grid. -/
def figure (s : Stroke) : Grid w h := (s.draw hw hh Grid.blank).2

/-- **A stroke flips its figure.** -/
theorem draw_snd (s : Stroke) (g : Grid w h) : (s.draw hw hh g).2 = g.xor (s.figure hw hh) := by
  cases s with
  | dot x y => exact g.flip_eq_xor _ _
  | sprite x y rows => exact Grid.drawSprite_snd hw hh x y _ g

/-- What some strokes flip between them. -/
def figures : List Stroke → Grid w h
  | [] => Grid.blank
  | s :: ss => (s.figure hw hh).xor (figures ss)

/-- **Strokes flip their figures.** -/
theorem drawAll?_of_placed : ∀ {ss : List Stroke}, (∀ s ∈ ss, s.Placed) → ∀ g : Grid w h,
    ∃ hits, drawAll? ss g = .ok (hits, g.xor (figures hw hh ss))
  | [], _, g => ⟨[], by rw [figures, Grid.xor_blank, drawAll?]⟩
  | s :: ss, placed, g => by
    have first := draw?_of_placed hw hh (placed s List.mem_cons_self) g
    obtain ⟨hits, rest⟩ := drawAll?_of_placed (fun t ht => placed t (List.mem_cons_of_mem s ht))
      (s.draw hw hh g).2
    refine ⟨(s.draw hw hh g).1 :: hits, ?_⟩
    rw [draw_snd, Grid.xor_assoc] at rest
    simp only [drawAll?, first, bind, Except.bind, draw_snd, rest, pure, Except.pure, figures]

/-- The order of strokes is nothing to the figure. -/
theorem figures_perm {ss ts : List Stroke} (p : ss.Perm ts) :
    figures hw hh ss = figures hw hh ts := by
  induction p with
  | nil => rfl
  | cons s _ ih => rw [figures, figures, ih]
  | swap s t ss => exact Grid.xor_left_comm ..
  | trans _ _ ih ih' => exact ih.trans ih'

/-- Two strokes of a kind cancel. -/
theorem figures_twice (as bs cs : List Stroke) (s : Stroke) :
    figures hw hh (as ++ s :: bs ++ s :: cs) = figures hw hh (as ++ bs ++ cs) := by
  have front : (as ++ s :: bs ++ s :: cs).Perm (s :: s :: (as ++ bs ++ cs)) :=
    List.perm_middle.trans ((List.perm_middle.append_right cs).cons s)
  rw [figures_perm hw hh front]
  exact Grid.xor_xor_self ..

/-- Whole grids more are nothing to a stroke. -/
theorem draw_shift {s : Stroke} (i j : Int) (fits : s.InRange) (fits' : (s.shift w h i j).InRange)
    (g : Grid w h) : (s.shift w h i j).draw hw hh g = s.draw hw hh g := by
  cases s with
  | dot x y => simp only [shift, draw, Grid.toggle, Grid.wrap_add_mul]
  | sprite x y rows => exact Grid.drawSprite_add_mul hw hh i j fits fits' y _ g

end

/-- **Drawing is a commutative action by exclusive or.** On a grid with at least
one column and one row every stroke that has its place is drawn, and strokes
flip the figure that they leave on a blank grid. So they leave the same in any
order, and with any two strokes of a kind taken out; a stroke that is drawn
twice leaves the grid as it was. A stroke that is moved by whole grids leaves
the same and tells the same. -/
theorem drawing_commutes_and_cancels (hw : 0 < w) (hh : 0 < h) (g : Grid w h) :
    (∀ ss : List Stroke, (∀ s ∈ ss, s.Placed) → ∃ hits hits' figure,
      drawAll? ss (Grid.blank : Grid w h) = .ok (hits, figure) ∧
        drawAll? ss g = .ok (hits', g.xor figure)) ∧
    (∀ ss ts : List Stroke, (∀ s ∈ ss, s.Placed) → ss.Perm ts → ∃ hits hits' k,
      drawAll? ss g = .ok (hits, k) ∧ drawAll? ts g = .ok (hits', k)) ∧
    (∀ (as bs cs : List Stroke) (s : Stroke), (∀ t ∈ as ++ s :: bs ++ s :: cs, t.Placed) →
      ∃ hits hits' k, drawAll? (as ++ s :: bs ++ s :: cs) g = .ok (hits, k) ∧
        drawAll? (as ++ bs ++ cs) g = .ok (hits', k)) ∧
    (∀ s : Stroke, s.Placed → ∃ hits, drawAll? [s, s] g = .ok (hits, g)) ∧
    ∀ (s : Stroke) (i j : Int), s.InRange → (s.shift w h i j).InRange → ∃ hit k,
      s.draw? g = .ok (hit, k) ∧ (s.shift w h i j).draw? g = .ok (hit, k) := by
  refine ⟨fun ss placed => ?_, fun ss ts placed p => ?_, fun as bs cs s placed => ?_,
    fun s placed => ?_, fun s i j fits fits' => ?_⟩
  · obtain ⟨hits, drawn⟩ := drawAll?_of_placed hw hh placed Grid.blank
    obtain ⟨hits', drawn'⟩ := drawAll?_of_placed hw hh placed g
    rw [Grid.xor_comm, Grid.xor_blank] at drawn
    exact ⟨hits, hits', _, drawn, drawn'⟩
  · obtain ⟨hits, drawn⟩ := drawAll?_of_placed hw hh placed g
    obtain ⟨hits', drawn'⟩ := drawAll?_of_placed hw hh (fun t ht => placed t (p.mem_iff.2 ht)) g
    rw [← figures_perm hw hh p] at drawn'
    exact ⟨hits, hits', _, drawn, drawn'⟩
  · obtain ⟨hits, drawn⟩ := drawAll?_of_placed hw hh placed g
    have others : ∀ t ∈ as ++ bs ++ cs, t.Placed := fun t ht => placed t <| by
      simp only [List.mem_append, List.mem_cons] at ht ⊢
      tauto
    obtain ⟨hits', drawn'⟩ := drawAll?_of_placed hw hh others g
    rw [figures_twice] at drawn
    exact ⟨hits, hits', _, drawn, drawn'⟩
  · have both : ∀ t ∈ [s, s], t.Placed := by simp [placed]
    obtain ⟨hits, drawn⟩ := drawAll?_of_placed hw hh both g
    rw [show figures hw hh [s, s] = Grid.blank from figures_twice hw hh [] [] [] s,
      Grid.xor_blank] at drawn
    exact ⟨hits, drawn⟩
  · refine ⟨(s.draw hw hh g).1, (s.draw hw hh g).2, draw?_of_placed hw hh fits.placed g, ?_⟩
    rw [draw?_of_placed hw hh fits'.placed, draw_shift hw hh i j fits fits']

/-- A sprite that is wider and higher than a grid of five columns and three
rows, so that some of its pixels fall on each other. -/
def wide : Stroke := sprite (-3) 2 [0x1FF, 0, 0x81, 0x42]

theorem wide_shift : wide.shift 5 3 3 (-2) = sprite 12 (-4) [0x1FF, 0, 0x81, 0x42] := by
  simp [wide, shift]

/-- The sprite and a pixel of it, in both orders; the sprite moved. -/
theorem wide_drawn_backwards :
    (0 < 5 ∧ 0 < 3 ∧ ∀ s ∈ [wide, dot 7 (-1)], s.Placed) ∧
      (∃ hits hits' k, drawAll? [wide, dot 7 (-1)] (Grid.blank : Grid 5 3) = .ok (hits, k) ∧
        drawAll? [dot 7 (-1), wide] (Grid.blank : Grid 5 3) = .ok (hits', k)) ∧
      ∃ hit k, wide.draw? (Grid.blank : Grid 5 3) = .ok (hit, k) ∧
        (sprite 12 (-4) [0x1FF, 0, 0x81, 0x42]).draw? (Grid.blank : Grid 5 3) = .ok (hit, k) := by
  have placed : ∀ s ∈ [wide, dot 7 (-1)], s.Placed := by
    simp [wide, Placed, Grid.fits64]
  have fits : wide.InRange := by
    show ∀ k : Nat, k < 8 → Grid.fits64 (-3 + k) = true
    decide
  have fits' : (wide.shift 5 3 3 (-2)).InRange := by
    rw [wide_shift]
    show ∀ k : Nat, k < 8 → Grid.fits64 (12 + k) = true
    decide
  obtain ⟨-, order, -, -, moved⟩ :=
    drawing_commutes_and_cancels (by decide) (by decide) (Grid.blank : Grid 5 3)
  have moved := moved wide 3 (-2) fits fits'
  rw [wide_shift] at moved
  exact ⟨⟨by decide, by decide, placed⟩, order _ _ placed (.swap ..), moved⟩

end Stroke

end ChipEight
