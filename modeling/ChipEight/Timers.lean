/-
# Countdown timers

Two timers that each tick brings nearer to zero: one for the program to read,
and one that sounds a tone while it runs.

Key definitions: `Timers`, `Timers.tick`, `Timers.ticks`, `Timers.soundActive`.
Key theorems: `Timers.delay_ticks`, `Timers.sound_ticks`.
-/

namespace ChipEight

/-- The values of the two timers. -/
structure Timers where
  delay : Int := 0
  sound : Int := 0
  deriving DecidableEq, Repr

namespace Timers

/-- One tick of a timer: it goes down by one unless it has run out. -/
def countDown (t : Int) : Int := if 0 < t then t - 1 else t

/-- One tick of both timers. -/
def tick (t : Timers) : Timers := ⟨countDown t.delay, countDown t.sound⟩

/-- Both timers run out at once. -/
def reset (t : Timers) : Timers := { t with delay := 0, sound := 0 }

/-- Some ticks. -/
def ticks : Nat → Timers → Timers
  | 0, t => t
  | k + 1, t => ticks k t.tick

theorem ticks_ticks : ∀ (j k : Nat) (t : Timers), (t.ticks j).ticks k = t.ticks (j + k)
  | 0, k, t => by rw [ticks, Nat.zero_add]
  | j + 1, k, t => by rw [ticks, ticks_ticks j k t.tick, Nat.succ_add, ticks]

/-- Whether the tone sounds. -/
def soundActive (t : Timers) : Bool := 0 < t.sound

/-- Ticks take a timer down to zero and no further. -/
theorem delay_ticks : ∀ (k : Nat) (t : Timers), 0 ≤ t.delay →
    (ticks k t).delay = max 0 (t.delay - k)
  | 0, t, h => by simp only [ticks]; omega
  | k + 1, t, h => by
    rw [ticks, delay_ticks k t.tick (by simp only [tick, countDown]; omega)]
    simp only [tick, countDown]
    omega

theorem sound_ticks : ∀ (k : Nat) (t : Timers), 0 ≤ t.sound →
    (ticks k t).sound = max 0 (t.sound - k)
  | 0, t, h => by simp only [ticks]; omega
  | k + 1, t, h => by
    rw [ticks, sound_ticks k t.tick (by simp only [tick, countDown]; omega)]
    simp only [tick, countDown]
    omega

end Timers

end ChipEight
