/-
# Stored configurations

A configuration from an object or from its text, and the text it is saved as.
What is stored may have numbers in other forms, so the rates and the modulus
are first turned into whole numbers: reals are cut off, truth values count as
zero and one, and texts are read as numerals. Only then are they checked.
Members of other names are ignored.

Key definitions: `Config.wholeOf`, `Config.ofJson`, `Config.ofText`,
`Config.toText`.
-/
import ChipEight.Config
import ChipEight.Json.Reader
import ChipEight.Numeral.Reading

namespace ChipEight

/-- Why something stored is no configuration. -/
inductive StoredError where
  /-- The text is not JSON. -/
  | malformed
  /-- The value is no object. -/
  | notAnObject
  /-- A value is of a sort that has no whole number. -/
  | notConvertible
  /-- A text is no numeral. -/
  | badNumeral (t : Text)
  /-- A whole number has too many digits. -/
  | tooManyDigits (count : Nat)
  /-- A NaN has no whole part. -/
  | wholeOfNaN
  /-- An infinity has no whole part. -/
  | wholeOfInfinity
  /-- The converted settings make no configuration. -/
  | config (e : ConfigError)

/-- What is said of something stored that is no configuration, where anything
is. A text that is no numeral is shown up to two hundred code points. -/
def StoredError.message? : StoredError → Option Text
  | .badNumeral t =>
    some (Text.of "invalid literal for int() with base 10: " ++ (Json.inlineText t).take 200)
  | .tooManyDigits count => some (Numeral.overLimit (some count))
  | .wholeOfNaN => some (Text.of "cannot convert float NaN to integer")
  | .config e => e.message?
  | .malformed | .notAnObject | .notConvertible | .wholeOfInfinity => none

namespace Config

/-- A value as a whole number. -/
def wholeOf : Json → Except StoredError Int
  | .int n => .ok n
  | .bool b => .ok (Number.ofBool b)
  | .real .nan => .error .wholeOfNaN
  | .real x =>
    match x.truncate? with
    | some n => .ok n
    | none => .error .wholeOfInfinity
  | .string t =>
    match Numeral.read t with
    | .ok n => .ok n
    | .error .malformed => .error (.badNumeral t)
    | .error (.tooManyDigits count) => .error (.tooManyDigits count)
  | .null | .array _ | .object _ => .error .notConvertible

/-- The configuration of an object's members. -/
def ofMembers (members : List (Text × Json)) : Except StoredError Config := do
  let usual : Settings := {}
  let given (name : Text) (value : Json) := (members.lookup name).getD value
  let ips ← wholeOf (given fieldNames.instructionsPerSecond usual.instructionsPerSecond)
  let hz ← wholeOf (given fieldNames.timerHz usual.timerHz)
  let modulus ← wholeOf (given fieldNames.onesModulus usual.onesModulus)
  (Settings.check {
    name := given fieldNames.name usual.name
    instructionsPerSecond := .int ips
    timerHz := .int hz
    randomSeed := given fieldNames.randomSeed usual.randomSeed
    onesModulus := .int modulus }).mapError .config

/-- The configuration of a stored value. -/
def ofJson : Json → Except StoredError Config
  | .object members => ofMembers members
  | _ => .error .notAnObject

/-- The configuration of a stored text. -/
def ofText (t : Text) : Except StoredError Config :=
  match Json.read t with
  | .ok v => ofJson v
  | .error .malformed => .error .malformed
  | .error (.tooManyDigits count) => .error (.tooManyDigits count)

/-- The text that a configuration is saved as. -/
def toText (c : Config) : Text := Json.write .indented c.toJson

end Config

end ChipEight
