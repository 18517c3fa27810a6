/-
# Memory

The 4096 bytes that programs, font and data share. Spans of bytes are named by
their start, which may be any whole number, and their length; a span is inside
memory if all its bytes are, so a span of no bytes always is.

Key definitions: `Memory`, `Memory.overlay`, `Memory.slice`, `Span.outside?`.
Key theorems: `Memory.getElem_overlay`, `Span.outside?_eq_none_iff`,
`Span.of_outside?_eq_some`.
-/
import ChipEight.Font

namespace ChipEight

/-- The contents of memory. -/
abbrev Memory := Vector UInt8 4096

/-! ### Spans -/

namespace Span

/-- An address of the span that is outside memory, if there is one: its start
if that is outside, and otherwise its last address. -/
def outside? (start : Int) (length : Nat) : Option Int :=
  let last := start + length - 1
  if length = 0 then none
  else if start < 0 ∨ 4096 ≤ start then some start
  else if 4096 ≤ last then some last
  else none

theorem outside?_eq_none_iff {start : Int} {length : Nat} :
    outside? start length = none ↔ length = 0 ∨ (0 ≤ start ∧ start + length ≤ 4096) := by
  unfold outside?
  simp only
  repeat' split
  all_goals simp
  all_goals omega

/-- What is reported is an address of the span, and outside memory. -/
theorem of_outside?_eq_some {start a : Int} {length : Nat} (e : outside? start length = some a) :
    (start ≤ a ∧ a < start + length) ∧ ¬(0 ≤ a ∧ a < 4096) := by
  unfold outside? at e
  simp only at e
  split at e
  · simp at e
  · split at e
    · simp only [Option.some.injEq] at e
      omega
    · split at e
      · simp only [Option.some.injEq] at e
        omega
      · simp at e

end Span

/-! ### Reading and writing -/

namespace Memory

/-- Memory with bytes put at an address and on; what does not fit is dropped. -/
def overlay : (start : Nat) → (bytes : List UInt8) → Memory → Memory
  | _, [], m => m
  | start, b :: bytes, m => overlay (start + 1) bytes (m.setIfInBounds start b)

/-- A byte is the one put over it, and its old value where none was. -/
theorem getElem_overlay : ∀ (bytes : List UInt8) (start : Nat) (m : Memory) (a : Nat)
    (ha : a < 4096),
    (overlay start bytes m)[a] =
      if start ≤ a then (bytes[a - start]?).getD m[a] else m[a]
  | [], start, m, a, ha => by simp [overlay]
  | b :: bytes, start, m, a, ha => by
    rw [overlay, getElem_overlay bytes (start + 1) _ a ha]
    by_cases h : start + 1 ≤ a
    · have e : a - start = (a - (start + 1)) + 1 := by omega
      simp [h, show start ≤ a by omega, e, Vector.getElem_setIfInBounds_ne, show start ≠ a by omega]
    · by_cases h' : start = a
      · subst h'; simp [h]
      · simp [h, show ¬start ≤ a by omega, Vector.getElem_setIfInBounds_ne, h']

/-- The bytes from an address on; beyond the top there are none. -/
def slice (start length : Nat) (m : Memory) : List UInt8 :=
  (m.toList.drop start).take length

/-- The byte at an address, zero outside memory. -/
def byteAt (a : Nat) (m : Memory) : UInt8 := m[a]?.getD 0

/-- Memory with the font at its bottom and zeros elsewhere. -/
def initial : Memory := overlay Dimensions.fontBase Font.bytes (.replicate 4096 0)

end Memory

end ChipEight
