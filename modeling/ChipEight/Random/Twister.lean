/-
# The Mersenne Twister

The generator MT19937 with its seeding by an array of words. A whole number
seeds it through the words of its magnitude, least significant first (zero has
one word), and a random byte is the top eight bits of an output word.

Key definitions: `Twister.ofSeed`, `Twister.nextWord`.
-/
import ChipEight.Random.Source

namespace ChipEight

namespace Twister

/-- How many words the state has. -/
abbrev size : Nat := 624

/-- How far ahead in the state a word is mixed with. -/
abbrev middle : Nat := 397

/-- The state words. -/
abbrev State := Vector UInt32 size

/-- A word mixed with itself two bits down, for seeding. -/
def fold (w : UInt32) : UInt32 := w ^^^ (w >>> 30)

/-- A state filled from one word: each is a multiple of the one before. -/
def fill (seed : UInt32) : State :=
  let words := (List.range (size - 1)).foldl
    (fun (words : Array UInt32) i =>
      words.push (1812433253 * fold (words.getD i 0) + UInt32.ofNat (i + 1)))
    (Array.mkEmpty size |>.push seed)
  Vector.ofFn fun i => words.getD i 0

/-- A state and the place that seeding has come to, from `1` to `623`. -/
structure Seeding where
  words : State
  place : Nat

namespace Seeding

/-- The word before the place. -/
def last (s : Seeding) : UInt32 := s.words[s.place - 1]?.getD 0

/-- The word at the place. -/
def current (s : Seeding) : UInt32 := s.words[s.place]?.getD 0

/-- A word put at the place, and the place moved on. After the last place the
last word becomes the first as well, and seeding goes on at place `1`. -/
def put (s : Seeding) (w : UInt32) : Seeding :=
  let words := s.words.setIfInBounds s.place w
  if s.place + 1 < size then ⟨words, s.place + 1⟩
  else ⟨words.setIfInBounds 0 w, 1⟩

/-- The first pass mixes the key in, round and round; `rest` is what is left
of the key and `index` the place in it. -/
def mixKey (key : List UInt32) : (rounds : Nat) → (rest : List UInt32) → (index : Nat) →
    Seeding → Seeding
  | 0, _, _, s => s
  | rounds + 1, rest, index, s =>
    let (k, rest, index) := match rest, key with
      | k :: rest, _ => (k, rest, index)
      | [], k :: rest => (k, rest, 0)
      | [], [] => (0, [], 0)
    mixKey key rounds rest (index + 1)
      (s.put ((s.current ^^^ (fold s.last * 1664525)) + k + UInt32.ofNat index))

/-- The second pass mixes the places in. -/
def mixPlaces : (rounds : Nat) → Seeding → Seeding
  | 0, s => s
  | rounds + 1, s =>
    mixPlaces rounds
      (s.put ((s.current ^^^ (fold s.last * 1566083941)) - UInt32.ofNat s.place))

end Seeding

/-- The state that a key of at least one word gives. -/
def seed (key : List UInt32) : State :=
  let s : Seeding := ⟨fill 19650218, 1⟩
  let s := Seeding.mixKey key (max size key.length) key 0 s
  (Seeding.mixPlaces (size - 1) s).words.setIfInBounds 0 0x80000000

/-- The words of a number, least significant first. -/
def wordsOf (n : Nat) : List UInt32 :=
  if n < 0x100000000 then [UInt32.ofNat n] else UInt32.ofNat n :: wordsOf (n / 0x100000000)
termination_by n

/-- A word of the next state: the top bit of one word and the other bits of
the next, shifted, with the word halfway round. -/
def twist (w next far : UInt32) : UInt32 :=
  let y := (w &&& 0x80000000) ||| (next &&& 0x7FFFFFFF)
  far ^^^ (y >>> 1) ^^^ (if y &&& 1 = 0 then 0 else 0x9908B0DF)

/-- The next state. Each word replaces its predecessor in turn, so the later
ones see the new words. -/
def refresh (s : State) : State :=
  (List.range size).foldl
    (fun s i =>
      s.setIfInBounds i
        (twist (s[i]?.getD 0) (s[(i + 1) % size]?.getD 0) (s[(i + middle) % size]?.getD 0)))
    s

/-- The output word for a state word. -/
def temper (w : UInt32) : UInt32 :=
  let w := w ^^^ (w >>> 11)
  let w := w ^^^ ((w <<< 7) &&& 0x9D2C5680)
  let w := w ^^^ ((w <<< 15) &&& 0xEFC60000)
  w ^^^ (w >>> 18)

end Twister

/-- A generator: the state, and how many of its words are used up. -/
structure Twister where
  words : Twister.State
  used : Nat

namespace Twister

/-- The generator for a whole number; its sign does not matter. -/
def ofSeed (n : Int) : Twister := ⟨seed (wordsOf n.natAbs), size⟩

/-- The next output word, and the generator after it. -/
def nextWord (t : Twister) : UInt32 × Twister :=
  if t.used < size then (temper (t.words[t.used]?.getD 0), { t with used := t.used + 1 })
  else
    let words := refresh t.words
    (temper (words[0]?.getD 0), ⟨words, 1⟩)

instance : RandomSource Twister where
  next t :=
    let (w, t) := t.nextWord
    ((w >>> 24).toNat, t)

end Twister

end ChipEight
