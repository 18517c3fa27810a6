/-
# Blank code points

The code points with the property White_Space of Unicode.

Key definitions: `CodePoint.isBlank`, `Text.trim`.
Key theorems: `CodePoint.isBlank_of_isWhitespace`.
-/
import ChipEight.Text

namespace ChipEight

/-- Whether a code point has the property White_Space. -/
def CodePoint.isBlank (c : Nat) : Bool :=
  (0x9 ≤ c && c ≤ 0xD) || c == 0x20 || c == 0x85 || c == 0xA0 || c == 0x1680
    || (0x2000 ≤ c && c ≤ 0x200A) || c == 0x2028 || c == 0x2029 || c == 0x202F
    || c == 0x205F || c == 0x3000

/-- A character that core counts as white space is blank. -/
theorem CodePoint.isBlank_of_isWhitespace {c : Char} (h : c.isWhitespace) :
    CodePoint.isBlank c.toNat = true := by
  simp only [Char.isWhitespace, Bool.or_eq_true, decide_eq_true_eq] at h
  rcases h with ((h | h) | h) | h <;> subst h <;> decide

/-- A text without the blanks at its two ends. -/
def Text.trim (t : Text) : Text :=
  ((t.dropWhile CodePoint.isBlank).reverse.dropWhile CodePoint.isBlank).reverse

end ChipEight
