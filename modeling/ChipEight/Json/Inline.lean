/-
# Values inside messages

How a value is shown in the middle of a sentence: `None`, `True` and `False`,
numerals, texts in single quotation marks, items in square brackets and
members in braces, set apart by a comma and a space. A text that holds a
single quotation mark and no double one is put in double ones. The quotation
mark in use and the backslash are escaped, as are code points without a
visible form. A value that holds a whole number with too many digits cannot be
shown at all.

Key definitions: `Json.inline`, `Json.isShort`, `Json.shown`,
`Json.inlineTuple`.
-/
import ChipEight.Json.Writer
import ChipEight.Text.Printable

namespace ChipEight

namespace Json

/-- The hexadecimal digits of a code point in a field of fixed width. -/
def hexField (width c : Nat) : Text :=
  let digits := Numeral.hexDigits c
  Text.pad Numeral.zero (width - digits.length) ++ digits

/-- A code point inside a text quoted with `mark`. -/
def inlineEscape (mark c : Nat) : Text :=
  if c = mark ∨ c = 0x5C then [0x5C, c]
  else if c = 0x0A then Text.of "\\n"
  else if c = 0x0D then Text.of "\\r"
  else if c = 0x09 then Text.of "\\t"
  else if CodePoint.isPrintable c then [c]
  else if c < 0x100 then Text.of "\\x" ++ hexField 2 c
  else if c < 0x10000 then Text.of "\\u" ++ hexField 4 c
  else Text.of "\\U" ++ hexField 8 c

/-- A text in quotation marks. -/
def inlineText (t : Text) : Text :=
  let mark := if t.contains 0x27 && !t.contains 0x22 then 0x22 else 0x27
  mark :: t.flatMap (inlineEscape mark) ++ [mark]

/-- The spelling of the numbers that are not finite. -/
def inlineSpelling : Binary64.Spelling := ⟨Text.of "nan", Text.of "inf"⟩

/-- A comma and a space. -/
def inlineSeparator : Text := Text.of ", "

mutual

/-- A value as it is shown inside a message. -/
def inline : Json → Text
  | .null => Text.of "None"
  | .bool true => Text.of "True"
  | .bool false => Text.of "False"
  | .int n => Numeral.decimal n
  | .real x => x.text inlineSpelling
  | .string t => inlineText t
  | .array vs => Text.of "[" ++ inlineItems vs ++ Text.of "]"
  | .object ms => Text.of "\x7b" ++ inlineMembers ms ++ Text.of "\x7d"

/-- Values one after the other. -/
def inlineItems : List Json → Text
  | [] => []
  | [v] => inline v
  | v :: w :: vs => inline v ++ inlineSeparator ++ inlineItems (w :: vs)

/-- Members one after the other. -/
def inlineMembers : List (Text × Json) → Text
  | [] => []
  | [(name, v)] => inlineText name ++ Text.of ": " ++ inline v
  | (name, v) :: m :: ms =>
    inlineText name ++ Text.of ": " ++ inline v ++ inlineSeparator ++ inlineMembers (m :: ms)

end

mutual

/-- Whether every whole number in a value has few enough digits to be shown. -/
def isShort : Json → Bool
  | .int n => decide (Numeral.Short n)
  | .array vs => itemsShort vs
  | .object ms => membersShort ms
  | .null | .bool _ | .real _ | .string _ => true

/-- Whether they have in every item. -/
def itemsShort : List Json → Bool
  | [] => true
  | v :: vs => isShort v && itemsShort vs

/-- Whether they have in every member. -/
def membersShort : List (Text × Json) → Bool
  | [] => true
  | (_, v) :: ms => isShort v && membersShort ms

end

theorem short_of_wholeNumber? {v : Json} {i : Int} (short : v.isShort)
    (whole : v.wholeNumber? = some i) : Numeral.Short i := by
  cases v with
  | int n =>
    cases whole
    exact of_decide_eq_true short
  | bool b =>
    cases whole
    cases b <;> decide
  | null | real | string | array | object => cases whole

/-- What is said of a value, if it can be shown at all. -/
def messageOn (v : Json) (text : Text) : Text :=
  if v.isShort then text else Numeral.overLimit none

/-- A value where it stands for itself: a text without quotation marks, any
other value as inside a message. -/
def shown : Json → Text
  | .string t => t
  | v => inline v

/-- Two or more values in round brackets. -/
def inlineTuple (vs : List Json) : Text :=
  Text.of "(" ++ inlineItems vs ++ Text.of ")"

end Json

end ChipEight
