/-
# The display grid

A grid of pixels that sprites are drawn on by exclusive or. Coordinates wrap
round on both axes. A sprite row is a byte that covers eight columns, the most
significant bit leftmost; on a grid narrower than eight columns several bits
may meet in one column, which is then flipped once.

The view of a grid is `pixel`: two grids with the same pixels are equal, and
each operation is described by what it does to the pixels.

Key definitions: `Grid`, `Grid.pixel`, `Grid.toggle`, `Grid.drawSprite`.
Key theorems: `Grid.ext_pixel`, `Grid.pixel_flip`, `Grid.pixel_drawRow`.
-/

namespace ChipEight

/-- A grid of pixels, row by row. -/
structure Grid (width height : Nat) where
  rows : Vector (Vector Bool width) height
  deriving DecidableEq

namespace Grid

variable {w h : Nat}

/-- The grid with every pixel off. -/
def blank : Grid w h := ⟨.replicate h (.replicate w false)⟩

/-- Whether the pixel in a column and a row is on. -/
def pixel (g : Grid w h) (x : Fin w) (y : Fin h) : Bool := g.rows[y][x]

/-- A grid is told by its pixels. -/
theorem ext_pixel {g k : Grid w h} (e : ∀ x y, g.pixel x y = k.pixel x y) : g = k := by
  obtain ⟨gs⟩ := g
  obtain ⟨ks⟩ := k
  congr 1
  ext y hy x hx
  exact e ⟨x, hx⟩ ⟨y, hy⟩

@[simp] theorem pixel_blank (x : Fin w) (y : Fin h) : (blank : Grid w h).pixel x y = false := by
  simp [pixel, blank]

/-- The grid with every pixel turned off. -/
def clear (g : Grid w h) : Grid w h := ⟨g.rows.map fun row => row.map fun _ => false⟩

theorem clear_eq_blank (g : Grid w h) : g.clear = blank := by
  apply ext_pixel
  intro x y
  rw [pixel_blank]
  simp [pixel, clear]

/-! ### Single pixels -/

/-- The grid with one pixel flipped. -/
def flip (g : Grid w h) (x : Fin w) (y : Fin h) : Grid w h :=
  ⟨g.rows.set y (g.rows[y].set x (!g.pixel x y))⟩

theorem pixel_flip (g : Grid w h) (x c : Fin w) (y r : Fin h) :
    (g.flip x y).pixel c r = (g.pixel c r ^^ (decide (c = x) && decide (r = y))) := by
  unfold flip pixel
  by_cases hr : r = y
  · subst hr
    by_cases hc : c = x
    · subst hc; simp
    · have : (x : Nat) ≠ c := fun e => hc (Fin.ext e.symm)
      simp [hc, Vector.getElem_set_ne, this]
  · have : (y : Nat) ≠ r := fun e => hr (Fin.ext e.symm)
    simp [hr, Vector.getElem_set_ne, this]

/-- A whole number wrapped into an axis. -/
def wrap (size : Nat) (positive : 0 < size) (i : Int) : Fin size :=
  ⟨(i % size).toNat, by
    have : 0 ≤ i % (size : Int) := Int.emod_nonneg i (by omega)
    have : i % (size : Int) < size := Int.emod_lt_of_pos i (by omega)
    omega⟩

/-- Going round an axis any number of times leads back. -/
theorem wrap_add_mul (size : Nat) (positive : 0 < size) (i k : Int) :
    wrap size positive (i + k * size) = wrap size positive i := by
  simp [wrap]

/-- The grid with the pixel at wrapped coordinates flipped, and whether it was
on before. -/
def toggle (hw : 0 < w) (hh : 0 < h) (x y : Int) (g : Grid w h) : Bool × Grid w h :=
  (g.pixel (wrap w hw x) (wrap h hh y), g.flip (wrap w hw x) (wrap h hh y))

/-! ### Sprites -/

/-- A whole number in sixty-four bits, the topmost of which is the sign. -/
def signed64 (i : Int) : Int := i.bmod 0x10000000000000000

/-- The columns that the set bits of a sprite row at `x` fall on. Column
numbers are kept to sixty-four bits before they are wrapped. -/
def columns (w : Nat) (hw : 0 < w) (x : Int) (row : UInt8) : List (Fin w) :=
  ((List.range 8).filter fun k => row.toNat.testBit (7 - k)).map fun (k : Nat) =>
    wrap w hw (signed64 (x + k))

/-- The grid with some columns of one row flipped, each once, and whether any
of them was on before. -/
def drawRow (cs : List (Fin w)) (y : Fin h) (g : Grid w h) : Bool × Grid w h :=
  let row := g.rows[y]
  (cs.any fun c => row[c],
    ⟨g.rows.set y (Vector.ofFn fun c : Fin w => row[c] ^^ cs.contains c)⟩)

theorem drawRow_fst (cs : List (Fin w)) (y : Fin h) (g : Grid w h) :
    (drawRow cs y g).1 = cs.any fun c => g.pixel c y := rfl

theorem pixel_drawRow (cs : List (Fin w)) (y r : Fin h) (c : Fin w) (g : Grid w h) :
    (drawRow cs y g).2.pixel c r = (g.pixel c r ^^ (cs.contains c && decide (r = y))) := by
  unfold drawRow pixel
  by_cases hr : r = y
  · subst hr; simp
  · have : (y : Nat) ≠ r := fun e => hr (Fin.ext e.symm)
    simp [hr, Vector.getElem_set_ne, this]

/-- The grid with a sprite drawn from a column and a row on, and whether any
pixel was turned off. Rows beyond the last go on at the first. -/
def drawSprite (hw : 0 < w) (hh : 0 < h) (x : Int) : (y : Int) → List UInt8 → Grid w h →
    Bool × Grid w h
  | _, [], g => (false, g)
  | y, row :: rows, g =>
    let (hit, g) := drawRow (columns w hw x row) (wrap h hh y) g
    let (hits, g) := drawSprite hw hh x (y + 1) rows g
    (hit || hits, g)

end Grid

/-! ### Grids that may have no columns or no rows -/

/-- Why a pixel or a sprite has no place on a grid. -/
inductive GridError where
  /-- The grid has no columns or no rows to wrap round. -/
  | emptyAxis
  /-- The first column of a sprite is beyond sixty-four bits. -/
  | columnTooLarge
  /-- A sprite row meets a grid without columns. -/
  | noColumns
  deriving DecidableEq, Repr

namespace Grid

variable {w h : Nat}

/-- Whether the pixel at wrapped coordinates is on. -/
def isSet? (x y : Int) (g : Grid w h) : Except GridError Bool :=
  if hw : 0 < w then
    if hh : 0 < h then .ok (g.pixel (wrap w hw x) (wrap h hh y)) else .error .emptyAxis
  else .error .emptyAxis

/-- The toggled grid, and whether the pixel was on before. -/
def toggle? (x y : Int) (g : Grid w h) : Except GridError (Bool × Grid w h) :=
  if hw : 0 < w then
    if hh : 0 < h then .ok (g.toggle hw hh x y) else .error .emptyAxis
  else .error .emptyAxis

/-- Whether a number fits in sixty-four bits, the topmost of which is the sign. -/
def fits64 (i : Int) : Bool := -0x8000000000000000 ≤ i && i < 0x8000000000000000

/-- The grid with a sprite drawn. Of each row number the low eight bits count,
and a row without set bits needs no place. -/
def drawSprite? (x y : Int) (rows : List Int) (g : Grid w h) : Except GridError (Bool × Grid w h) :=
  let rows := rows.map UInt8.ofInt
  if rows.all (· == 0) then .ok (false, g)
  else if hh : 0 < h then
    if fits64 x then
      if hw : 0 < w then .ok (g.drawSprite hw hh x y rows) else .error .noColumns
    else .error .columnTooLarge
  else .error .emptyAxis

end Grid

end ChipEight
