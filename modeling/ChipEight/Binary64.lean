/-
# Binary floating-point numbers, exactly

The numbers of the IEEE 754 format binary64 as significand and exponent, with
every operation done in whole-number arithmetic and rounded once, to nearest
with ties to even. Nothing here touches the hardware type, so each value and
each comparison can be computed in a proof. What a NaN carries beyond being
one is not kept.

A finite number is `± significand · 2 ^ exponent`. Its significand is below
`2 ^ 53` and its exponent at least `-1074`, and the significand is at least
`2 ^ 52` unless the exponent is `-1074`, so equal numbers of one sign are
equal values of the type.

Key definitions: `Binary64.ofRatio`, `Binary64.ofDecimal`, `Binary64.lt`,
`Binary64.truncate?`, `Binary64.floorQuotient`.
Key theorems: `Binary64.two_mul_roundHalfEven_le`,
`Binary64.le_two_mul_roundHalfEven`.
-/

namespace ChipEight

/-- A number of the format binary64. -/
inductive Binary64 where
  /-- Not a number. -/
  | nan
  /-- Beyond every finite number. -/
  | infinite (negative : Bool)
  /-- The number `± significand · 2 ^ exponent`. -/
  | finite (negative : Bool) (significand : Nat) (exponent : Int)
  deriving DecidableEq, Repr, Inhabited

namespace Binary64

/-- The exponent of the smallest positive number. -/
abbrev minExponent : Int := -1074

/-- The exponent of the largest finite number. -/
abbrev maxExponent : Int := 971

/-- A power of two. -/
abbrev twoPow (n : Nat) : Nat := Nat.pow 2 n

/-- A power of ten. -/
abbrev tenPow (n : Nat) : Nat := Nat.pow 10 n

/-- A zero of either sign. -/
abbrev zero (negative : Bool) : Binary64 := .finite negative 0 minExponent

/-! ### Rounding -/

/-- The whole number nearest to a ratio; of two equally near the even one. -/
def roundHalfEven (num den : Nat) : Nat :=
  let q := num / den
  let r := num % den
  if 2 * r < den then q else if den < 2 * r then q + 1 else q + q % 2

/-- The rounded ratio is at most half a unit too large. -/
theorem two_mul_roundHalfEven_le (num den : Nat) (h : 0 < den) :
    2 * (den * roundHalfEven num den) ≤ 2 * num + den := by
  have e := Nat.div_add_mod num den
  have l := Nat.mod_lt num h
  have p : num / den % 2 ≤ 1 := by omega
  have m : den * (num / den % 2) ≤ den * 1 := Nat.mul_le_mul_left _ p
  unfold roundHalfEven
  simp only
  split
  · omega
  · split <;> simp only [Nat.mul_add] <;> omega

/-- The rounded ratio is at most half a unit too small. -/
theorem le_two_mul_roundHalfEven (num den : Nat) (h : 0 < den) :
    2 * num ≤ 2 * (den * roundHalfEven num den) + den := by
  have e := Nat.div_add_mod num den
  have l := Nat.mod_lt num h
  unfold roundHalfEven
  simp only
  split
  · omega
  · split <;> simp only [Nat.mul_add] <;> omega

/-- The ratio `num / den` counted in units of `2 ^ e`, as a ratio again. -/
def inUnits (num den : Nat) (e : Int) : Nat × Nat :=
  (num * twoPow (-e).toNat, den * twoPow e.toNat)

/-- The number nearest to `± num / den`, where `den` is not zero. -/
def ofRatio (negative : Bool) (num den : Nat) : Binary64 :=
  if num = 0 then zero negative
  else
    -- in these units the ratio lies between 2 ^ 52 and 2 ^ 54
    let guess : Int := num.log2 - den.log2 - 53
    let (n, d) := inUnits num den guess
    let e := max minExponent (if twoPow 53 * d ≤ n then guess + 1 else guess)
    let (n, d) := inUnits num den e
    let q := roundHalfEven n d
    let (q, e) := if q = twoPow 53 then (twoPow 52, e + 1) else (q, e)
    if maxExponent < e then .infinite negative else .finite negative q e

/-- The number nearest to a whole number. -/
def ofInt (n : Int) : Binary64 := ofRatio (n < 0) n.natAbs 1

/-- The number nearest to `± digits · 10 ^ exponent`. Exponents far outside
the range are settled by the count of digits alone. -/
def ofDecimal (negative : Bool) (digits : Nat) (exponent : Int) : Binary64 :=
  if digits = 0 then zero negative
  else
    let magnitude := exponent + (Nat.toDigits 10 digits).length
    if 310 < magnitude then .infinite negative
    else if magnitude < -330 then zero negative
    else ofRatio negative (digits * tenPow exponent.toNat) (tenPow (-exponent).toNat)

/-! ### Exact values and comparisons -/

/-- The exact value of a finite number as a fraction; `none` if there is none. -/
def fraction? : Binary64 → Option (Int × Nat)
  | .finite negative m e =>
    let num : Int := (m * twoPow e.toNat : Nat)
    some (if negative then -num else num, twoPow (-e).toNat)
  | _ => none

/-- Whether the first number is less than the second. -/
def lt : Binary64 → Binary64 → Bool
  | .nan, _ | _, .nan => false
  | .infinite a, .infinite b => a && !b
  | .infinite a, .finite .. => a
  | .finite .., .infinite b => !b
  | x@(.finite ..), y@(.finite ..) =>
    match x.fraction?, y.fraction? with
    | some (n, d), some (k, c) => n * c < k * d
    | _, _ => false

/-- Whether two numbers are the same value: zeros of both signs are, and so
are two NaNs, though neither is less than the other or equal to it. -/
def sameValue (x y : Binary64) : Bool :=
  match x, y with
  | .nan, .nan => true
  | .nan, _ | _, .nan => false
  | _, _ => !x.lt y && !y.lt x

/-- Whether the number is exactly the whole number `n`. -/
def isInt (x : Binary64) (n : Int) : Bool :=
  match x.fraction? with
  | some (k, d) => k == n * d
  | none => false

/-- The whole part, cut off toward zero; `none` for what is not finite. -/
def truncate? (x : Binary64) : Option Int :=
  x.fraction?.map fun (n, d) => n.tdiv d

/-! ### Division -/

/-- The number nearest to the difference of two fractions, over a third. -/
private def nearest (n : Int) (d : Nat) : Binary64 := ofRatio (n < 0) n.natAbs d

/-- How often the positive number `y` goes into the positive number `x`, as a
number. The remainder is taken exactly, the difference and the quotient are
rounded, and a quotient that rounding has put just below a whole number is
put right. -/
def floorQuotient (x y : Binary64) : Binary64 :=
  match x, y with
  | .nan, _ | _, .nan | .infinite _, _ => .nan
  | .finite .., .infinite _ => zero false
  | .finite .., .finite .. =>
    match x.fraction?, y.fraction? with
    | some (n, d), some (k, c) =>
      -- both over the denominator d * c
      let rest := (n * c) % (k * d)
      match (nearest (n * c - rest) (d * c)).fraction? with
      | some (p, q) =>
        let quotient := nearest (p * c) (q * k.toNat)
        match quotient.fraction? with
        | some (a, b) =>
          let whole := a / b
          if b < 2 * (a - whole * b) then ofInt (whole + 1) else ofInt whole
        | none => quotient
      | none => .nan
    | _, _ => .nan

end Binary64

end ChipEight
