/-
# Sprites pixel by pixel

A sprite is drawn row by row, and of each row all columns are flipped at one
go. Single pixels may be toggled instead, one for each column that a set bit of
the row falls on. Where the grid has less than eight columns several bits may
fall on one of them, and still it is toggled once; where it has eight or more,
that is one pixel for each set bit. In which order the columns of a row come is
nothing to what is drawn and told.

Of rows beyond the last of the grid nothing more need be said: they come round
to rows that are drawn already, and meet there what both ways have left.

Key definitions: `Stroke.drawEach?`, `Stroke.SetBit`, `Stroke.Dots`,
`Stroke.columnDots`, `Stroke.bitDots`.
Key theorems: `Grid.drawRow_cons`, `Grid.wrap_eq_wrap_iff`,
`Stroke.drawEach?_dots_append`, `Stroke.Dots.drawEach?_eq`, `Stroke.sprite_is_drawn_pixel_by_pixel`.
-/
import ChipEight.Proofs.Sprites
import Mathlib.Data.List.Dedup
import Mathlib.Tactic.IntervalCases

namespace ChipEight

namespace Grid

variable {w h : Nat}

/-! ### One row -/

/-- What a row flips is told by its columns, whatever their order. -/
theorem drawRow_congr {cs ds : List (Fin w)} (same : ∀ c, c ∈ cs ↔ c ∈ ds) (y : Fin h)
    (g : Grid w h) : drawRow cs y g = drawRow ds y g := by
  have contained (c : Fin w) : cs.contains c = ds.contains c := by
    rw [Bool.eq_iff_iff, List.contains_iff_mem, List.contains_iff_mem, same]
  refine Prod.ext ?_ (ext_pixel fun c r => ?_)
  · rw [drawRow_fst, drawRow_fst, Bool.eq_iff_iff, List.any_eq_true, List.any_eq_true]
    simp only [same]
  · rw [pixel_drawRow, pixel_drawRow, contained]

/-- A column may be flipped before all others, which do not meet it again. -/
theorem drawRow_cons {c : Fin w} {cs : List (Fin w)} (new : c ∉ cs) (y : Fin h) (g : Grid w h) :
    drawRow (c :: cs) y g =
      (g.pixel c y || (drawRow cs y (g.flip c y)).1, (drawRow cs y (g.flip c y)).2) := by
  refine Prod.ext ?_ (ext_pixel fun d r => ?_)
  · have kept : ∀ d ∈ cs, (g.flip c y).pixel d y = g.pixel d y := fun d other => by
      have apart : d ≠ c := fun e => new (e ▸ other)
      rw [pixel_flip, decide_eq_false apart, Bool.false_and, Bool.xor_false]
    have others : (cs.any fun d => (g.flip c y).pixel d y) = cs.any fun d => g.pixel d y := by
      rw [Bool.eq_iff_iff, List.any_eq_true, List.any_eq_true]
      exact exists_congr fun d => and_congr_right fun other => by rw [kept d other]
    show (drawRow (c :: cs) y g).1 = (g.pixel c y || (drawRow cs y (g.flip c y)).1)
    rw [drawRow_fst, drawRow_fst, List.any_cons, others]
  · show (drawRow (c :: cs) y g).2.pixel d r = (drawRow cs y (g.flip c y)).2.pixel d r
    rw [pixel_drawRow, pixel_drawRow, pixel_flip, Bool.xor_assoc]
    by_cases here : d = c
    · subst here
      simp [new]
    · simp [here]

/-! ### Places as rests -/

/-- A number falls on the place that is its rest. -/
theorem val_wrap {size : Nat} (positive : 0 < size) (i : Int) :
    ((wrap size positive i).val : Int) = i % size :=
  Int.toNat_of_nonneg (Int.emod_nonneg i (by omega))

/-- Numbers that are whole rounds apart, and no others, fall on one place. -/
theorem wrap_eq_wrap_iff {size : Nat} (positive : 0 < size) {i j : Int} :
    wrap size positive i = wrap size positive j ↔ i % size = j % size := by
  rw [Fin.ext_iff, ← Int.ofNat_inj, val_wrap, val_wrap]

theorem map_val_wrap {size : Nat} (positive : 0 < size) (is : List Int) :
    (is.map (wrap size positive)).map (fun p => (p.val : Int)) = is.map (· % (size : Int)) := by
  rw [List.map_map]
  exact List.map_congr_left fun i _ => val_wrap positive i

end Grid

namespace Stroke

variable {w h : Nat}

/-! ### Strokes with one answer -/

/-- The grid with strokes drawn one after the other, and whether any of them
turned a pixel off. -/
def drawEach? (ss : List Stroke) (g : Grid w h) : Except GridError (Bool × Grid w h) :=
  (drawAll? ss g).map fun (hits, g) => (hits.any id, g)

theorem drawEach?_cons {s : Stroke} {ss : List Stroke} {hit hits : Bool} {g k l : Grid w h}
    (first : s.draw? g = .ok (hit, k)) (others : drawEach? ss k = .ok (hits, l)) :
    drawEach? (s :: ss) g = .ok (hit || hits, l) := by
  unfold drawEach? at others ⊢
  rcases e : drawAll? ss k with f | ⟨bs, k'⟩
  · rw [e] at others
    cases others
  · rw [e] at others
    cases others
    simp only [drawAll?, first, e, bind, Except.bind, pure, Except.pure]
    rfl

section

variable (hw : 0 < w) (hh : 0 < h)

/-- **Columns that are all different are flipped at one go or one after the
other.** Other strokes may follow. -/
theorem drawEach?_dots_append {cols : List Int} (once : (cols.map (Grid.wrap w hw)).Nodup)
    (y : Int) {ss : List Stroke} {hits : Bool} {g k : Grid w h}
    (others : drawEach? ss (Grid.drawRow (cols.map (Grid.wrap w hw)) (Grid.wrap h hh y) g).2 =
      .ok (hits, k)) :
    drawEach? (cols.map (dot · y) ++ ss) g =
      .ok ((Grid.drawRow (cols.map (Grid.wrap w hw)) (Grid.wrap h hh y) g).1 || hits, k) := by
  induction cols generalizing g with
  | nil =>
    rw [List.map_nil (f := Grid.wrap w hw), Grid.drawRow_nil] at others ⊢
    rwa [List.map_nil, List.nil_append, Bool.false_or]
  | cons c cols ih =>
    obtain ⟨new, once⟩ := List.nodup_cons.1 once
    have first : (dot c y).draw? g = .ok (g.toggle hw hh c y) :=
      draw?_of_placed hw hh (s := dot c y) trivial g
    rw [List.map_cons (f := Grid.wrap w hw), Grid.drawRow_cons new] at others ⊢
    have rest := drawEach?_cons first (ih once others)
    rwa [← Bool.or_assoc] at rest

end

/-! ### The pixels of a sprite -/

/-- The bit of a sprite row that falls `k` columns from its first is set. -/
def SetBit (row : Int) (k : Nat) : Prop := row / 2 ^ (7 - k) % 2 = 1

instance (row : Int) (k : Nat) : Decidable (SetBit row k) :=
  inferInstanceAs (Decidable (_ = _))

/-- Of a row number the low eight bits count. -/
theorem testBit_ofInt {row : Int} {k : Nat} (hk : k < 8) :
    (UInt8.ofInt row).toNat.testBit (7 - k) ↔ SetBit row k := by
  rw [Nat.testBit_eq_decide_div_mod_eq, decide_eq_true_eq, UInt8.ofInt, UInt8.toNat_ofNat',
    SetBit]
  interval_cases k <;> omega

/-- A list of pixels that goes through a sprite from row `y` on: row by row,
each column that a set bit falls on is there once. A column may be given by any
number that falls on it, and the columns of a row may be in any order. -/
inductive Dots (w : Nat) (x : Int) : (y : Int) → (rows : List Int) → List Stroke → Prop
  | nil {y : Int} : Dots w x y [] []
  | cons {y row : Int} {rows cols : List Int} {dots : List Stroke}
      (once : (cols.map (· % (w : Int))).Nodup)
      (columns : ∀ c, c ∈ cols.map (· % (w : Int)) ↔ ∃ k < 8, SetBit row k ∧ c = (x + k) % w)
      (rest : Dots w x (y + 1) rows dots) :
      Dots w x y (row :: rows) (cols.map (dot · y) ++ dots)

/-- The set bits of a row, the most significant first. -/
def setBits (row : Int) : List Nat := (List.range 8).filter fun k => SetBit row k

theorem mem_setBits {row : Int} {k : Nat} : k ∈ setBits row ↔ k < 8 ∧ SetBit row k := by
  rw [setBits, List.mem_filter, List.mem_range, decide_eq_true_eq]

/-- The different columns that the set bits of a row fall on. -/
def columnsOf (w : Nat) (x row : Int) : List Int :=
  ((setBits row).map fun (k : Nat) => (x + k) % w).dedup

/-- For each row of a sprite, each column that one of its set bits falls on. -/
def columnDots (w : Nat) (x : Int) : (y : Int) → (rows : List Int) → List Stroke
  | _, [] => []
  | y, row :: rows => (columnsOf w x row).map (dot · y) ++ columnDots w x (y + 1) rows

/-- For each row of a sprite, the place of each of its set bits. -/
def bitDots (x : Int) : (y : Int) → (rows : List Int) → List Stroke
  | _, [] => []
  | y, row :: rows =>
    ((setBits row).map fun (k : Nat) => x + k).map (dot · y) ++ bitDots x (y + 1) rows

theorem mem_columnsOf {x row c : Int} :
    c ∈ columnsOf w x row ↔ ∃ k < 8, SetBit row k ∧ c = (x + k) % w := by
  simp only [columnsOf, List.mem_dedup, List.mem_map, mem_setBits, and_assoc, eq_comm]

theorem dots_columnDots (w : Nat) (x : Int) : ∀ (y : Int) (rows : List Int),
    Dots w x y rows (columnDots w x y rows)
  | _, [] => .nil
  | y, row :: rows => by
    -- the columns are rests modulo the width already
    have rests : (columnsOf w x row).map (· % (w : Int)) = columnsOf w x row := by
      refine (List.map_congr_left fun c hc => ?_).trans (List.map_id _)
      obtain ⟨k, -, -, rfl⟩ := mem_columnsOf.1 hc
      exact Int.emod_emod_of_dvd _ (Int.dvd_refl _)
    refine .cons ?_ ?_ (dots_columnDots w x (y + 1) rows)
    · rw [rests]
      exact List.nodup_dedup _
    · rw [rests]
      exact fun c => mem_columnsOf

/-- On eight columns or more no two bits of a row fall on one of them. -/
theorem dots_bitDots (wide : 8 ≤ w) (x : Int) : ∀ (y : Int) (rows : List Int),
    Dots w x y rows (bitDots x y rows)
  | _, [] => .nil
  | y, row :: rows => by
    refine .cons ?_ (fun c => ?_) (dots_bitDots wide x (y + 1) rows)
    · rw [List.map_map]
      refine List.Nodup.map_on (fun j hj k hk same => ?_) (List.nodup_range.filter _)
      have hj : j < 8 := (mem_setBits.1 hj).1
      have hk : k < 8 := (mem_setBits.1 hk).1
      have same : (x + j) % w = (x + k) % w := same
      by_contra differ
      have positive : 0 < w := by omega
      rw [← Grid.wrap_eq_wrap_iff positive] at same
      rcases Nat.lt_or_gt_of_ne differ with lt | gt
      · exact Grid.wrap_ne_wrap positive (by omega) (by omega) same
      · exact Grid.wrap_ne_wrap positive (by omega) (by omega) same.symm
    · simp only [List.map_map, List.mem_map, mem_setBits, Function.comp_apply, and_assoc, eq_comm]

section

variable (hw : 0 < w) (hh : 0 < h) {x : Int}

/-- Columns that are those of the set bits up to whole rounds are what drawing
the row flips. -/
theorem mem_columns_of_rests (fits : ∀ k : Nat, k < 8 → Grid.fits64 (x + k)) {row : Int}
    {cols : List Int}
    (columns : ∀ c, c ∈ cols.map (· % (w : Int)) ↔ ∃ k < 8, SetBit row k ∧ c = (x + k) % w)
    (c : Fin w) :
    c ∈ cols.map (Grid.wrap w hw) ↔ c ∈ Grid.columns w hw x (UInt8.ofInt row) := by
  have place (k : Nat) (hk : k < 8) :
      Grid.wrap w hw (Grid.signed64 (x + k)) = c ↔ (c.val : Int) = (x + k) % w := by
    rw [Grid.signed64_of_fits (fits k hk), ← Grid.val_wrap hw, Int.ofNat_inj, Fin.ext_iff, eq_comm]
  have rest : c ∈ cols.map (Grid.wrap w hw) ↔ (c.val : Int) ∈ cols.map (· % (w : Int)) := by
    rw [← Grid.map_val_wrap hw]
    simp [Fin.ext_iff]
  rw [rest, columns, Grid.mem_columns_iff]
  refine exists_congr fun k => and_congr_right fun hk => ?_
  rw [testBit_ofInt hk, place k hk]

/-- **Toggling the pixels of a sprite is drawing it.** -/
theorem Dots.drawEach?_eq (fits : ∀ k : Nat, k < 8 → Grid.fits64 (x + k)) {y : Int}
    {rows : List Int} {dots : List Stroke} (goes : Dots w x y rows dots) (g : Grid w h) :
    drawEach? dots g = .ok (g.drawSprite hw hh x y (rows.map UInt8.ofInt)) := by
  induction goes generalizing g with
  | nil => rfl
  | @cons y row rows cols dots once columns rest ih =>
    have differ : (cols.map (Grid.wrap w hw)).Nodup := by
      rw [← Grid.map_val_wrap hw] at once
      exact once.of_map _
    have next := drawEach?_dots_append hw hh differ y (g := g)
      (ih (Grid.drawRow (cols.map (Grid.wrap w hw)) (Grid.wrap h hh y) g).2)
    rwa [Grid.drawRow_congr (mem_columns_of_rests hw fits columns)] at next

end

/-- **A sprite is drawn pixel by pixel.** On a grid of any size, with any number
of rows, a sprite whose eight columns fit in sixty-four bits leaves and tells
what its pixels do that are toggled one after the other: row by row, in each row
once for every column that a set bit falls on, in any order of the columns. On
eight columns or more that is one pixel for each set bit. -/
theorem sprite_is_drawn_pixel_by_pixel (hw : 0 < w) (hh : 0 < h) {x : Int}
    (fits : ∀ k : Nat, k < 8 → Grid.fits64 (x + k)) (y : Int) (rows : List Int) (g : Grid w h) :
    ∃ hit k, g.drawSprite? x y rows = .ok (hit, k) ∧
      (∀ dots, Dots w x y rows dots → drawEach? dots g = .ok (hit, k)) ∧
      Dots w x y rows (columnDots w x y rows) ∧
      (8 ≤ w → drawEach? (bitDots x y rows) g = .ok (hit, k)) := by
  have placed : (sprite x y rows).Placed := InRange.placed (s := sprite x y rows) fits
  have drawn : g.drawSprite? x y rows = .ok (g.drawSprite hw hh x y (rows.map UInt8.ofInt)) :=
    draw?_of_placed hw hh placed g
  refine ⟨_, _, drawn, fun dots goes => goes.drawEach?_eq hw hh fits g, dots_columnDots w x y rows,
    fun wide => ?_⟩
  exact (dots_bitDots wide x y rows).drawEach?_eq hw hh fits g

/-- On five columns and three rows all columns of a row are toggled by its eight
bits, one column once by two bits, and a fourth row meets the first; that turns
a pixel off. On eight columns there is a pixel for each bit. -/
theorem folded_sprite_is_toggled :
    (0 < 5 ∧ 0 < 3 ∧ ∀ k : Nat, k < 8 → Grid.fits64 (-3 + k)) ∧
      (∃ k, (Grid.blank : Grid 5 3).drawSprite? (-3) 2 [0x1FF, 0, 0x81, 0x42] = .ok (true, k) ∧
        drawEach? [dot 0 2, dot 1 2, dot 2 2, dot 3 2, dot 4 2, dot 2 4, dot 4 4, dot 3 5]
          (Grid.blank : Grid 5 3) = .ok (true, k)) ∧
      ∃ k, (Grid.blank : Grid 8 3).drawSprite? (-3) 2 [0x42, -0xFF] = .ok (false, k) ∧
        drawEach? [dot (-2) 2, dot 3 2, dot 4 3] (Grid.blank : Grid 8 3) = .ok (false, k) := by
  have fits : ∀ k : Nat, k < 8 → Grid.fits64 (-3 + k) := by decide
  refine ⟨⟨by decide, by decide, fits⟩, ?_, ?_⟩
  · obtain ⟨hit, k, drawn, toggled, columns, -⟩ := sprite_is_drawn_pixel_by_pixel
      (by decide) (by decide) fits 2 [0x1FF, 0, 0x81, 0x42] (Grid.blank : Grid 5 3)
    have each := toggled _ columns
    obtain rfl : true = hit := congrArg (fun r => (r.toOption.map Prod.fst).getD false) each
    exact ⟨k, drawn, each⟩
  · obtain ⟨hit, k, drawn, -, -, bits⟩ := sprite_is_drawn_pixel_by_pixel
      (by decide) (by decide) fits 2 [0x42, -0xFF] (Grid.blank : Grid 8 3)
    have each := bits (by decide)
    obtain rfl : false = hit := congrArg (fun r => (r.toOption.map Prod.fst).getD false) each
    exact ⟨k, drawn, each⟩

end Stroke

end ChipEight
