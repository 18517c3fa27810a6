/-
# Random sources

Where the machine's random bytes come from. A source is anything that yields
a whole number and the source to ask next; the machine keeps the low eight
bits of the number. The numbers that a source will yield, one after the other,
are its stream.

Key definitions: `RandomSource`, `RandomSource.after`, `RandomSource.stream`,
`RandomSource.byte`, `RandomSource.SameBytes`, `Sequence`.
Key theorems: `RandomSource.stream_next`, `RandomSource.byte_after`,
`Sequence.stream_eq`.
-/

namespace ChipEight

/-- A source of whole numbers. -/
class RandomSource (σ : Type) where
  /-- The next number, and the source after it. -/
  next : σ → Int × σ

namespace RandomSource

variable {σ : Type} [RandomSource σ]

/-- The source after some draws. -/
def after : Nat → σ → σ
  | 0, s => s
  | k + 1, s => after k (next s).2

/-- The number that a source yields after `k` others. -/
def stream (s : σ) (k : Nat) : Int := (next (after k s)).1

/-- The low eight bits of the next number, and the source after it. -/
def nextByte (s : σ) : UInt8 × σ := (UInt8.ofInt (next s).1, (next s).2)

theorem stream_zero (s : σ) : stream s 0 = (next s).1 := rfl

/-- A draw takes the first number off the stream. -/
theorem stream_next (s : σ) (k : Nat) : stream (next s).2 k = stream s (k + 1) := rfl

theorem after_after : ∀ (j k : Nat) (s : σ), after k (after j s) = after (j + k) s
  | 0, k, s => by rw [Nat.zero_add, after]
  | j + 1, k, s => by rw [after, after_after j k (next s).2, Nat.add_right_comm, after]

/-- The byte that a source yields after `k` others. -/
def byte (s : σ) (k : Nat) : UInt8 := UInt8.ofInt (stream s k)

theorem nextByte_eq (s : σ) : nextByte s = (byte s 0, after 1 s) := rfl

/-- Draws take as many bytes off the front. -/
theorem byte_after (j k : Nat) (s : σ) : byte (after j s) k = byte s (j + k) := by
  rw [byte, stream, after_after]
  rfl

/-- The second source yields the bytes of the first, for ever. -/
def SameBytes {τ : Type} [RandomSource τ] (s : σ) (t : τ) : Prop := ∀ k, byte t k = byte s k

theorem SameBytes.after {τ : Type} [RandomSource τ] {s : σ} {t : τ} (h : SameBytes s t) (j : Nat) :
    SameBytes (after j s) (after j t) := by
  intro k
  rw [byte_after, byte_after]
  exact h (j + k)

end RandomSource

/-- A given sequence of numbers, of which some are drawn already. -/
structure Sequence where
  value : Nat → Int
  drawn : Nat

namespace Sequence

instance : RandomSource Sequence where
  next s := (s.value s.drawn, { s with drawn := s.drawn + 1 })

theorem after_eq : ∀ (k : Nat) (s : Sequence),
    RandomSource.after k s = { s with drawn := s.drawn + k }
  | 0, _ => rfl
  | k + 1, s => by
    simp [RandomSource.after, RandomSource.next, after_eq k, Nat.add_comm 1 k, Nat.add_assoc]

/-- The stream of a sequence is what is left of the sequence. -/
theorem stream_eq (s : Sequence) (k : Nat) : RandomSource.stream s k = s.value (s.drawn + k) := by
  simp [RandomSource.stream, after_eq, RandomSource.next]

end Sequence

end ChipEight
