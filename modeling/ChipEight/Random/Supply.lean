/-
# The random sources a host can give a machine

One number for ever, some numbers round and round, or a seeded generator.

Key definitions: `Supply`, `Supply.round`, `Supply.seeded`,
`Supply.ofSeed`.
Key theorems: `Supply.stream_constant`.
-/
import ChipEight.Json
import ChipEight.Random.Twister

namespace ChipEight

/-- A random source of one of three kinds. -/
inductive Supply where
  /-- The same number at every draw. -/
  | constant (value : Int)
  /-- The numbers of a list that is not empty, then those of the list again;
  `upcoming` is what is left of the present round. -/
  | cycle (first : Int) (others upcoming : List Int)
  /-- A seeded generator. -/
  | twister (t : Twister)

namespace Supply

/-- The numbers of a list round and round; zero for ever if there are none. -/
def round : List Int → Supply
  | [] => .constant 0
  | v :: vs => .cycle v vs (v :: vs)

/-- The generator for a seed. -/
def seeded (seed : Int) : Supply := .twister (Twister.ofSeed seed)

/-- A configured seed that no generator can be made for. -/
inductive SeedError where
  /-- Arrays and objects are no seeds. -/
  | unsuitable
  deriving DecidableEq, Repr

/-- The generator that a configured seed asks for, if it asks for one. Reals
and texts are carried along in configurations but seed nothing. -/
def ofSeed (seed : Json) : Except SeedError (Option Supply) :=
  match seed with
  | .array _ | .object _ => .error .unsuitable
  | v => .ok (v.wholeNumber?.map seeded)

instance : RandomSource Supply where
  next
    | .constant v => (v, .constant v)
    | .cycle v vs [] => (v, .cycle v vs vs)
    | .cycle v vs (w :: ws) => (w, .cycle v vs ws)
    | .twister t => ((RandomSource.next t).1, .twister (RandomSource.next t).2)

theorem after_constant (v : Int) : ∀ k, RandomSource.after k (constant v) = constant v
  | 0 => rfl
  | k + 1 => after_constant v k

theorem stream_constant (v : Int) (k : Nat) : RandomSource.stream (constant v) k = v := by
  rw [RandomSource.stream, after_constant]; rfl

end Supply

end ChipEight
