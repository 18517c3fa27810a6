/-
# Reading JSON

From text to value. The grammar is that of JSON with three more words, `NaN`,
`Infinity` and `-Infinity`. A numeral with neither fraction nor exponent is a
whole number of any size up to a limit on its digits, any other is a real. Of
two members with one name the later one counts. Control characters must not
stand in a text unescaped, and an escape may name a lone surrogate; a high one
followed by a low one is a single code point.

The reader goes through the text once, from left to right, so the first fault
in the text is the one reported.

Key definitions: `Json.read`, `Json.ReadError`, `Json.readValue`.
-/
import ChipEight.Json
import ChipEight.Numeral

namespace ChipEight

namespace Json

/-- Why a text is not read. -/
inductive ReadError where
  /-- The text is not of the grammar. -/
  | malformed
  /-- A whole number has more digits than the limit. -/
  | tooManyDigits (count : Nat)
  deriving DecidableEq, Repr

/-- What a part of the reader gives: a value and the text after it. -/
abbrev Read (α : Type) := Except ReadError (α × Text)

/-- The code points that may stand between the parts of a value. -/
def isSpace (c : Nat) : Bool := c == 0x20 || c == 0x09 || c == 0x0A || c == 0x0D

/-- A text from its first code point that is not a space. -/
def skipSpace (t : Text) : Text := t.dropWhile isSpace

/-- Whether a code point is a digit from `0` to `9`. -/
def isDigit (c : Nat) : Bool := 0x30 ≤ c && c ≤ 0x39

/-- The values of the digits at the start of a text. -/
def digitsOf (t : Text) : List Nat := (t.takeWhile isDigit).map (· - 0x30)

/-! ### Texts -/

/-- The value of a hexadecimal digit of either case. -/
def hexValue? (c : Nat) : Option Nat :=
  if 0x30 ≤ c ∧ c ≤ 0x39 then some (c - 0x30)
  else if 0x41 ≤ c ∧ c ≤ 0x46 then some (c - 0x41 + 10)
  else if 0x61 ≤ c ∧ c ≤ 0x66 then some (c - 0x61 + 10)
  else none

/-- Four hexadecimal digits at the start of a text, and the rest of it. -/
def fourHex? : Text → Option (Nat × Text)
  | a :: b :: c :: d :: rest => do
    let a ← hexValue? a
    let b ← hexValue? b
    let c ← hexValue? c
    let d ← hexValue? d
    pure (((a * 16 + b) * 16 + c) * 16 + d, rest)
  | _ => none

/-- Whether a code point is the first half of a pair of surrogates. -/
def isHighSurrogate (c : Nat) : Bool := 0xD800 ≤ c && c ≤ 0xDBFF

/-- Whether a code point is the second half of a pair of surrogates. -/
def isLowSurrogate (c : Nat) : Bool := 0xDC00 ≤ c && c ≤ 0xDFFF

/-- The code point that a pair of surrogates stands for. -/
def joinSurrogates (high low : Nat) : Nat :=
  0x10000 + (high - 0xD800) * 0x400 + (low - 0xDC00)

/-- The code point after a backslash and `u`. A high surrogate takes the escape
after it along if that one names a low surrogate. -/
def readUnitEscape (t : Text) : Read Nat :=
  match fourHex? t with
  | none => .error .malformed
  | some (high, rest) =>
    if isHighSurrogate high then
      match rest with
      | 0x5C :: 0x75 :: rest' =>
        match fourHex? rest' with
        | none => .error .malformed
        | some (low, rest'') =>
          if isLowSurrogate low then .ok (joinSurrogates high low, rest'') else .ok (high, rest)
      | _ => .ok (high, rest)
    else .ok (high, rest)

/-- The code point that a letter after a backslash stands for. -/
def escapedLetter? (c : Nat) : Option Nat :=
  if c = 0x22 ∨ c = 0x5C ∨ c = 0x2F then some c
  else if c = 0x62 then some 0x08
  else if c = 0x66 then some 0x0C
  else if c = 0x6E then some 0x0A
  else if c = 0x72 then some 0x0D
  else if c = 0x74 then some 0x09
  else none

/-- The text up to the closing quotation mark, after what was read `before`,
last code point first. Each round reads one code point or one escape, so the
fuel need only be the length of what is left. -/
def readString : (fuel : Nat) → (before : Text) → Text → Read Text
  | 0, _, _ => .error .malformed
  | fuel + 1, before, t =>
    match t with
    | [] => .error .malformed
    | 0x22 :: rest => .ok (before.reverse, rest)
    | 0x5C :: 0x75 :: rest =>
      match readUnitEscape rest with
      | .error e => .error e
      | .ok (c, rest) => readString fuel (c :: before) rest
    | 0x5C :: letter :: rest =>
      match escapedLetter? letter with
      | none => .error .malformed
      | some c => readString fuel (c :: before) rest
    | c :: rest =>
      if c = 0x5C ∨ c < 0x20 then .error .malformed else readString fuel (c :: before) rest

/-! ### Numbers -/

/-- The digits of a fraction at the start of a text: a point and at least one
digit. Without them there is no fraction. -/
def readFraction (t : Text) : List Nat × Text :=
  match t with
  | 0x2E :: rest =>
    if (digitsOf rest).isEmpty then ([], t) else (digitsOf rest, rest.dropWhile isDigit)
  | _ => ([], t)

/-- The exponent at the start of a text: the letter `e` of either case, perhaps
a sign, and at least one digit. -/
def readExponent (t : Text) : Option Int × Text :=
  match t with
  | c :: rest =>
    if c = 0x65 ∨ c = 0x45 then
      let (negative, digits) := match rest with
        | 0x2D :: r => (true, r)
        | 0x2B :: r => (false, r)
        | r => (false, r)
      if (digitsOf digits).isEmpty then (none, t)
      else
        let size : Int := Numeral.ofDigits 10 (digitsOf digits)
        (some (if negative then -size else size), digits.dropWhile isDigit)
    else (none, t)
  | [] => (none, t)

/-- A number without its sign. The whole part is a zero alone or starts with
another digit. -/
def readUnsigned (negative : Bool) (t : Text) : Read Json :=
  let whole := match t with
    | 0x30 :: _ => [0]
    | _ => digitsOf t
  if whole.isEmpty then .error .malformed
  else
    let (fraction, afterFraction) := readFraction (t.drop whole.length)
    let (exponent, rest) := readExponent afterFraction
    if fraction.isEmpty && exponent.isNone then
      if Numeral.maxDigits < whole.length then .error (.tooManyDigits whole.length)
      else
        let n : Int := Numeral.ofDigits 10 whole
        .ok (.int (if negative then -n else n), rest)
    else
      .ok (.real (.ofDecimal negative (Numeral.ofDigits 10 (whole ++ fraction))
        (exponent.getD 0 - fraction.length)), rest)

/-- The words of the grammar and the values they stand for. -/
def words : List (Text × Json) := [
  (Text.of "null", .null),
  (Text.of "true", .bool true),
  (Text.of "false", .bool false),
  (Text.of "NaN", .real .nan),
  (Text.of "Infinity", .real (.infinite false)),
  (Text.of "-Infinity", .real (.infinite true))]

/-- A word or a number at the start of a text. -/
def readScalar (t : Text) : Read Json :=
  match words.findSome? fun (word, v) => (Text.dropExact? word t).map (v, ·) with
  | some found => .ok found
  | none =>
    match t with
    | 0x2D :: rest => readUnsigned true rest
    | _ => readUnsigned false t

/-! ### Values -/

mutual

/-- A value at the start of a text. The fuel bounds the depth of brackets and
the number of items, so the length of the text is enough. -/
def readValue : (fuel : Nat) → Text → Read Json
  | 0, _ => .error .malformed
  | fuel + 1, t =>
    match t with
    | 0x22 :: rest => (readString t.length [] rest).map fun (s, rest) => (.string s, rest)
    | 0x5B :: rest =>
      match skipSpace rest with
      | 0x5D :: rest => .ok (.array [], rest)
      | rest => (readItems fuel [] rest).map fun (vs, rest) => (.array vs, rest)
    | 0x7B :: rest =>
      match skipSpace rest with
      | 0x7D :: rest => .ok (.object [], rest)
      | rest => (readMembers fuel [] rest).map fun (ms, rest) => (.object ms, rest)
    | _ => readScalar t

/-- The items of an array from the next one to the closing bracket, after
those read `before`, last item first. -/
def readItems : (fuel : Nat) → (before : List Json) → Text → Read (List Json)
  | 0, _, _ => .error .malformed
  | fuel + 1, before, t =>
    match readValue fuel t with
    | .error e => .error e
    | .ok (v, rest) =>
      match skipSpace rest with
      | 0x5D :: rest => .ok ((v :: before).reverse, rest)
      | 0x2C :: rest => readItems fuel (v :: before) (skipSpace rest)
      | _ => .error .malformed

/-- The members of an object from the name of the next one to the closing
brace, added to those read before. -/
def readMembers : (fuel : Nat) → (before : List (Text × Json)) → Text →
    Read (List (Text × Json))
  | 0, _, _ => .error .malformed
  | fuel + 1, before, t =>
    match t with
    | 0x22 :: rest =>
      match readString t.length [] rest with
      | .error e => .error e
      | .ok (name, rest) =>
        match skipSpace rest with
        | 0x3A :: rest =>
          match readValue fuel (skipSpace rest) with
          | .error e => .error e
          | .ok (v, rest) =>
            match skipSpace rest with
            | 0x7D :: rest => .ok (insertMember name v before, rest)
            | 0x2C :: rest => readMembers fuel (insertMember name v before) (skipSpace rest)
            | _ => .error .malformed
        | _ => .error .malformed
    | _ => .error .malformed

end

/-- The value that a whole text spells, with spaces at both ends allowed. -/
def read (t : Text) : Except ReadError Json :=
  match readValue (t.length + 1) (skipSpace t) with
  | .error e => .error e
  | .ok (v, rest) => if (skipSpace rest).isEmpty then .ok v else .error .malformed

end Json

end ChipEight
