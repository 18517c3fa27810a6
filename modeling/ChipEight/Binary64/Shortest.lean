/-
# The shortest decimal that reads back

Which decimal stands for a binary floating-point number: of the decimals that
round to the number, one with the fewest digits, and of those the nearest to
it. Grids of one digit, two digits, and so on up to seventeen are tried in
turn; if a grid has a point that rounds to the number, so is one of the
number's two neighbours on the grid, so only these are looked at.

The written form is positional while the leading digit stands for a power of
ten from `10 ^ -4` to `10 ^ 15`, with at least one digit after the point;
beyond that it is one digit, the others after a point, and an exponent with
its sign and at least two digits.

Key definitions: `Binary64.shortest`, `Binary64.text`.
-/
import ChipEight.Binary64
import ChipEight.Numeral

namespace ChipEight

namespace Binary64

/-- The numbers that round to one number, between `low` and `high` in units of
a quarter of its last place; the ends belong to it if `closed`. -/
structure RoundingRange where
  low : Nat
  high : Nat
  closed : Bool

/-- The range that rounds to `significand · 2 ^ exponent`. Below a power of two
the numbers lie twice as close, save at the smallest exponent. -/
def roundingRange (significand : Nat) (exponent : Int) : RoundingRange where
  low := 4 * significand - (if significand = twoPow 52 ∧ minExponent < exponent then 1 else 2)
  high := 4 * significand + 2
  closed := significand % 2 == 0

/-- A power of ten as a ratio. -/
def powTen (e : Int) : Nat × Nat := (tenPow e.toNat, tenPow (-e).toNat)

/-- The decimal exponent of the leading digit of `num / den`, where neither is
zero: the greatest `p` with `10 ^ p ≤ num / den`. -/
def leadingPower (num den : Nat) : Int :=
  let bits : Int := num.log2 - den.log2 - 1
  -- 30103 / 100000 is the logarithm of two; the guess is short by two at most
  let guess := (bits * 30103) / 100000 - 1
  let reaches (p : Int) : Bool := (powTen p).1 * den ≤ num * (powTen p).2
  if reaches (guess + 3) then guess + 3
  else if reaches (guess + 2) then guess + 2
  else if reaches (guess + 1) then guess + 1
  else guess

/-- The shortest decimal for `significand · 2 ^ exponent`, not zero: its digits
as a number and the power of ten of the last of them. -/
def shortest (significand : Nat) (exponent : Int) : Nat × Int :=
  let range := roundingRange significand exponent
  -- one unit of the range is unitNum / unitDen
  let unitNum := twoPow (exponent - 2).toNat
  let unitDen := twoPow (2 - exponent).toNat
  let num := 4 * significand * unitNum
  let top := leadingPower num unitDen
  let pick (digits : Nat) : Option (Nat × Int) :=
    let power := top - digits + 1
    let (stepNum, stepDen) := powTen power
    -- k steps of the grid against q units: k * step * unitDen and q * unit * stepDen
    let step := stepNum * unitDen
    let unit := unitNum * stepDen
    let value := 4 * significand * unit
    let inside (k : Nat) : Bool :=
      if range.closed then range.low * unit ≤ k * step && k * step ≤ range.high * unit
      else range.low * unit < k * step && k * step < range.high * unit
    let below := value / step
    let overBelow := value - below * step
    let underAbove := (below + 1) * step - value
    match inside below, inside (below + 1) with
    | true, true =>
      if overBelow < underAbove then some (below, power)
      else if underAbove < overBelow then some (below + 1, power)
      else some (below + below % 2, power)
    | true, false => some (below, power)
    | false, true => some (below + 1, power)
    | false, false => none
  ((List.range 17).findSome? fun i => pick (i + 1)).getD (0, 0)

/-- The digits of a decimal without the zeros at its end, and the power of ten
of the last digit left. -/
def stripZeros : Nat → Nat × Int → Nat × Int
  | 0, d => d
  | fuel + 1, (digits, power) =>
    if digits ≠ 0 ∧ digits % 10 = 0 then stripZeros fuel (digits / 10, power + 1)
    else (digits, power)

/-- The written form of `digits · 10 ^ power`. -/
def decimalText (digits : Nat) (power : Int) : Text :=
  let ds := Numeral.decimalDigits digits
  let leading := power + ds.length - 1
  if -4 ≤ leading ∧ leading < 16 then
    if power < 0 then
      let point := (ds.length + power).toNat
      let filled := Text.pad Numeral.zero (1 - (ds.length + power)).toNat ++ ds
      if 0 < ds.length + power then ds.take point ++ Text.of "." ++ ds.drop point
      else filled.take 1 ++ Text.of "." ++ filled.drop 1
    else ds ++ Text.pad Numeral.zero power.toNat ++ Text.of ".0"
  else
    let mantissa := match ds with
      | [] => []
      | [d] => [d]
      | d :: rest => d :: Text.of "." ++ rest
    let size := Numeral.decimalDigits leading.natAbs
    mantissa ++ Text.of (if leading < 0 then "e-" else "e+")
      ++ Text.pad Numeral.zero (2 - size.length) ++ size

/-- The written form of a finite number: the shortest decimal that reads back. -/
def finiteText (negative : Bool) (significand : Nat) (exponent : Int) : Text :=
  let (digits, power) :=
    if significand = 0 then (0, 0) else stripZeros 17 (shortest significand exponent)
  (if negative then [Numeral.minus] else []) ++ decimalText digits power

/-- How numbers that are not finite are spelled. -/
structure Spelling where
  nan : Text
  infinity : Text

/-- The written form of any number. -/
def text (spelling : Spelling) : Binary64 → Text
  | .nan => spelling.nan
  | .infinite negative => (if negative then [Numeral.minus] else []) ++ spelling.infinity
  | .finite negative m e => finiteText negative m e

end Binary64

end ChipEight
