/-
# Reading whole numbers

A numeral as a person may type it: blanks at both ends, perhaps a sign, and
decimal digits of any script, between which single underscores may stand. The
count of digits is limited, and a numeral over the limit is refused as such
whatever follows its digits.

Key definitions: `Numeral.read`, `Numeral.ReadError`, `Numeral.scanDigits`.
-/
import ChipEight.Numeral
import ChipEight.Text.Blank
import ChipEight.Text.DecimalDigit

namespace ChipEight

namespace Numeral

/-- Why a text is no numeral. -/
inductive ReadError where
  /-- It is not of the form. -/
  | malformed
  /-- It has more digits than the limit. -/
  | tooManyDigits (count : Nat)
  deriving DecidableEq, Repr

/-- The underscore. -/
abbrev underscore : Nat := 0x5F

/-- The digit values at the start of a text, single underscores between them
left out, and the rest of the text. There must be a digit before and after
each underscore, so there is no result for a text in which one stands
otherwise. The values in `before` are those read so far, last first. -/
def scanDigits : (before : List Nat) → (afterUnderscore : Bool) → Text →
    Option (List Nat × Text)
  | before, afterUnderscore, [] => if afterUnderscore then none else some (before.reverse, [])
  | before, afterUnderscore, c :: rest =>
    match CodePoint.decimalValue? c with
    | some d => scanDigits (d :: before) false rest
    | none =>
      if afterUnderscore then none
      else if c = underscore then
        if before.isEmpty then none else scanDigits before true rest
      else some (before.reverse, c :: rest)

/-- The number without its sign. -/
def readUnsigned (t : Text) : Except ReadError Nat :=
  match scanDigits [] false t with
  | none => .error .malformed
  | some (digits, rest) =>
    if maxDigits < digits.length then .error (.tooManyDigits digits.length)
    else if digits.isEmpty || !rest.isEmpty then .error .malformed
    else .ok (ofDigits 10 digits)

/-- The whole number that a text spells. -/
def read (t : Text) : Except ReadError Int :=
  match t.trim with
  | 0x2D :: rest => (readUnsigned rest).map fun n => -(n : Int)
  | 0x2B :: rest => (readUnsigned rest).map fun n => (n : Int)
  | body => (readUnsigned body).map fun n => (n : Int)

end Numeral

end ChipEight
