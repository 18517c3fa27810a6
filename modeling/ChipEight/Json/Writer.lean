/-
# Writing JSON

A value as text in ASCII, either on one line or spread over lines with each
level indented by two spaces. Every code point outside the range from space to
tilde is escaped, those beyond the sixteen-bit range as a pair of surrogates;
the names `NaN` and `Infinity` stand for the numbers that JSON has no
numeral for. Empty arrays and objects stay on one line.

Key definitions: `Json.write`, `Json.quote`, `Json.Layout`.
-/
import ChipEight.Binary64.Shortest
import ChipEight.Json

namespace ChipEight

namespace Json

/-- How the parts of a value are set apart. -/
inductive Layout where
  /-- All on one line, without spaces. -/
  | line
  /-- One item to a line, two spaces to a level. -/
  | indented
  deriving DecidableEq

/-- Four hexadecimal digits in lower case. -/
def fourHex (c : Nat) : Text :=
  let digits := Numeral.hexDigits c
  Text.pad Numeral.zero (4 - digits.length) ++ digits

/-- The escape that names a sixteen-bit unit. -/
def unitEscape (c : Nat) : Text := Text.of "\\u" ++ fourHex c

/-- A code point as it stands between quotation marks. -/
def escape (c : Nat) : Text :=
  if c = 0x22 then Text.of "\\\""
  else if c = 0x5C then Text.of "\\\\"
  else if c = 0x0A then Text.of "\\n"
  else if c = 0x0D then Text.of "\\r"
  else if c = 0x09 then Text.of "\\t"
  else if c = 0x0C then Text.of "\\f"
  else if c = 0x08 then Text.of "\\b"
  else if 0x20 ≤ c ∧ c ≤ 0x7E then [c]
  else if c < 0x10000 then unitEscape c
  else unitEscape (0xD800 + (c - 0x10000) / 0x400) ++ unitEscape (0xDC00 + (c - 0x10000) % 0x400)

/-- A text between quotation marks. -/
def quote (t : Text) : Text := 0x22 :: t.flatMap escape ++ [0x22]

/-- The spelling of the numbers that are not finite. -/
def spelling : Binary64.Spelling := ⟨Text.of "NaN", Text.of "Infinity"⟩

namespace Layout

/-- What stands before an item at some depth, and before the closing bracket. -/
def lineBreak : Layout → Nat → Text
  | .line, _ => []
  | .indented, depth => 0x0A :: Text.pad 0x20 (2 * depth)

/-- What stands between a name and its value. -/
def colon : Layout → Text
  | .line => Text.of ":"
  | .indented => Text.of ": "

end Layout

mutual

/-- The text of a value whose items stand one level below `depth`. -/
def writeAt (layout : Layout) (depth : Nat) : Json → Text
  | .null => Text.of "null"
  | .bool true => Text.of "true"
  | .bool false => Text.of "false"
  | .int n => Numeral.decimal n
  | .real x => x.text spelling
  | .string t => quote t
  | .array [] => Text.of "[]"
  | .array (v :: vs) =>
    0x5B :: layout.lineBreak (depth + 1) ++ writeAt layout (depth + 1) v
      ++ writeItems layout (depth + 1) vs ++ layout.lineBreak depth ++ [0x5D]
  | .object [] => Text.of "\x7b\x7d"
  | .object ((name, v) :: ms) =>
    0x7B :: layout.lineBreak (depth + 1) ++ quote name ++ layout.colon
      ++ writeAt layout (depth + 1) v
      ++ writeMembers layout (depth + 1) ms ++ layout.lineBreak depth ++ [0x7D]

/-- The items of an array after the first, each after its comma. -/
def writeItems (layout : Layout) (depth : Nat) : List Json → Text
  | [] => []
  | v :: vs => 0x2C :: layout.lineBreak depth ++ writeAt layout depth v
      ++ writeItems layout depth vs

/-- The members of an object after the first, each after its comma. -/
def writeMembers (layout : Layout) (depth : Nat) : List (Text × Json) → Text
  | [] => []
  | (name, v) :: ms => 0x2C :: layout.lineBreak depth ++ quote name ++ layout.colon
      ++ writeAt layout depth v ++ writeMembers layout depth ms

end

/-- The text of a value. -/
def write (layout : Layout) (v : Json) : Text := writeAt layout 0 v

end Json

end ChipEight
