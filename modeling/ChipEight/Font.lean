/-
# The built-in font

Sixteen glyphs of five rows, one for each hexadecimal digit, as they lie at
the bottom of memory. A row is a byte of which only the high four bits carry
pixels.

Key definitions: `Font.bytes`, `Font.glyphAddress`, `Font.glyphRows`,
`Font.glyphBitmap`.
Key theorems: `Font.length_bytes`, `Font.low_bits_zero`.
-/
import ChipEight.Dimensions
import ChipEight.Numeral

namespace ChipEight

namespace Font

/-- The rows of all glyphs, one after the other. -/
def bytes : List UInt8 := [
  0xF0, 0x90, 0x90, 0x90, 0xF0,
  0x20, 0x60, 0x20, 0x20, 0x70,
  0xF0, 0x10, 0xF0, 0x80, 0xF0,
  0xF0, 0x10, 0xF0, 0x10, 0xF0,
  0x90, 0x90, 0xF0, 0x10, 0x10,
  0xF0, 0x80, 0xF0, 0x10, 0xF0,
  0xF0, 0x80, 0xF0, 0x90, 0xF0,
  0xF0, 0x10, 0x20, 0x40, 0x40,
  0xF0, 0x90, 0xF0, 0x90, 0xF0,
  0xF0, 0x90, 0xF0, 0x10, 0xF0,
  0xF0, 0x90, 0xF0, 0x90, 0x90,
  0xE0, 0x90, 0xE0, 0x90, 0xE0,
  0xF0, 0x80, 0x80, 0x80, 0xF0,
  0xE0, 0x90, 0x90, 0x90, 0xE0,
  0xF0, 0x80, 0xF0, 0x80, 0xF0,
  0xF0, 0x80, 0xF0, 0x80, 0x80]

theorem length_bytes : bytes.length = Dimensions.fontSize := rfl

/-- No row has a pixel beyond the fourth column. -/
theorem low_bits_zero : ∀ row ∈ bytes, row &&& 0x0F = 0 := by
  decide +kernel

/-- A number that is no hexadecimal digit. -/
structure GlyphError where
  digit : Int
  deriving DecidableEq, Repr

/-- What is said of a number that is no hexadecimal digit. -/
def GlyphError.message (e : GlyphError) : Text :=
  Numeral.messageOn e.digit (Text.of "Glyph digit out of range: " ++ Numeral.decimal e.digit)

/-- Where in memory the glyph of a digit is. -/
def glyphAddress (digit : Int) : Except GlyphError Nat :=
  if 0 ≤ digit ∧ digit < Dimensions.glyphCount then
    .ok (Dimensions.fontBase + digit.toNat * Dimensions.glyphHeight)
  else .error ⟨digit⟩

/-- The five rows of the glyph of a digit. -/
def glyphRows (digit : Int) : Except GlyphError (List UInt8) :=
  (glyphAddress digit).map fun address =>
    (bytes.drop (address - Dimensions.fontBase)).take Dimensions.glyphHeight

/-- The four pixels of a row, leftmost first. -/
def rowPixels (row : UInt8) : List Bool :=
  (List.range 4).map fun column => row.toNat.testBit (7 - column)

/-- The pixels of the glyph of a digit, row by row. -/
def glyphBitmap (digit : Int) : Except GlyphError (List (List Bool)) :=
  (glyphRows digit).map fun rows => rows.map rowPixels

end Font

end ChipEight
