/-
# Numerals

How whole numbers are written: decimal numerals with a leading minus sign, and
hexadecimal numerals in two forms. The plain form puts the sign before the
mark `0x`; the padded form puts it after the mark, and its width counts the
sign (`-1` at width four is `0x-001`).

There is a limit to the digits of a decimal numeral, both where one is read and
where one is put into a message; hexadecimal numerals have none.

Key definitions: `Numeral.decimal`, `Numeral.Short`, `Numeral.hex`,
`Numeral.hexPadded`, `Numeral.ofDigits`.
-/
import ChipEight.Text

namespace ChipEight

namespace Numeral

/-- The minus sign. -/
abbrev minus : Nat := 0x2D

/-- The digit zero. -/
abbrev zero : Nat := 0x30

/-- The most digits that a decimal numeral may have. -/
def maxDigits : Nat := 4300

/-- The decimal digits of a number, most significant first. -/
def decimalDigits (n : Nat) : Text := (Nat.toDigits 10 n).map Char.toNat

/-- A whole number in decimal. -/
def decimal : Int → Text
  | .ofNat n => decimalDigits n
  | .negSucc n => minus :: decimalDigits (n + 1)

/-- A whole number has no more digits than a decimal numeral may have. -/
def Short (n : Int) : Prop := (decimalDigits n.natAbs).length ≤ maxDigits

instance (n : Int) : Decidable (Short n) :=
  inferInstanceAs (Decidable ((decimalDigits n.natAbs).length ≤ maxDigits))

/-- Bytes are short. -/
theorem short_of_byte : ∀ n < 256, Short (n : Nat) := by
  decide +kernel

/-- What is said of a whole number with too many digits. How many there are is
only known where they were read. -/
def overLimit (count : Option Nat) : Text :=
  Text.of "Exceeds the limit (" ++ decimal maxDigits
    ++ Text.of " digits) for integer string conversion"
    ++ count.elim [] (fun n => Text.of ": value has " ++ decimal n ++ Text.of " digits")
    ++ Text.of "; use sys.set_int_max_str_digits() to increase the limit"

/-- What is said of a whole number, if it can be written down at all. -/
def messageOn (n : Int) (text : Text) : Text := if Short n then text else overLimit none

/-- The hexadecimal digits of a number in lower case. -/
def hexDigits (n : Nat) : Text := (Nat.toDigits 16 n).map Char.toNat

/-- The hexadecimal digits of a number in upper case. -/
def hexDigitsUpper (n : Nat) : Text := (Nat.toDigits 16 n).map fun c => c.toUpper.toNat

/-- A whole number in lower-case hexadecimal, the sign before the mark. -/
def hex (n : Int) : Text :=
  (if n < 0 then [minus] else []) ++ Text.of "0x" ++ hexDigits n.natAbs

/-- The upper-case digits of a whole number, filled with zeros after the sign
until sign and digits together are `width` long. -/
def zeroFilled (width : Nat) (n : Int) : Text :=
  let sign := if n < 0 then [minus] else []
  let digits := hexDigitsUpper n.natAbs
  sign ++ Text.pad zero (width - sign.length - digits.length) ++ digits

/-- A whole number in upper-case hexadecimal of at least `width` places, the
sign counted among them and written after the mark. -/
def hexPadded (width : Nat) (n : Int) : Text := Text.of "0x" ++ zeroFilled width n

/-- The number that digit values spell in a base, most significant first. -/
def ofDigits (base : Nat) (digits : List Nat) : Nat :=
  digits.foldl (fun value d => base * value + d) 0

end Numeral

end ChipEight
