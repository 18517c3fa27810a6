/-
# Configurations

How fast a machine is to be driven, what seeds its random bytes, and how the
last decimal digit of `FX33` is taken. A configuration is made of five
settings, which may be any values; the rates must be numbers above zero, and
the modulus `10` or `100`. Name and seed are only carried along.

The modulus is compared as a number, so the reals `10.0` and `100.0` are
accepted too and stay reals; a NaN is not at most zero and so passes as a rate.

Key definitions: `Config`, `Settings.check`, `Config.ofFields`,
`Config.instructionsPerFrame`, `Config.forModel`.
Key theorems: `Settings.check_eq_ok_iff`, `Settings.checkRate_int_iff`,
`Settings.checkModulus_int_iff`, `Config.check_standard`,
`Config.ofFields_nil`.
-/
import ChipEight.Json.Inline

namespace ChipEight

/-- What `FX33` takes the last digit by: ten, or a hundred. -/
inductive OnesModulus where
  /-- The whole number ten. -/
  | ten
  /-- The whole number a hundred. -/
  | hundred
  /-- Ten as a real number. -/
  | realTen
  /-- A hundred as a real number. -/
  | realHundred
  deriving DecidableEq, Repr

namespace OnesModulus

/-- The modulus of a value, by what the value counts. -/
def ofJson? : Json → Option OnesModulus
  | .int n => if n = 10 then some ten else if n = 100 then some hundred else none
  | .real x =>
    if x.isInt 10 then some realTen else if x.isInt 100 then some realHundred else none
  | _ => none

/-- The modulus as a value. -/
def toJson : OnesModulus → Json
  | ten => .int 10
  | hundred => .int 100
  | realTen => .real (.ofInt 10)
  | realHundred => .real (.ofInt 100)

/-- The modulus as a whole number, if it is one. -/
def whole? : OnesModulus → Option Nat
  | ten => some 10
  | hundred => some 100
  | realTen | realHundred => none

/-- The number that a modulus counts as. -/
def value : OnesModulus → Nat
  | ten | realTen => 10
  | hundred | realHundred => 100

end OnesModulus

/-- A configuration. -/
structure Config where
  name : Json
  instructionsPerSecond : Number
  timerHz : Number
  randomSeed : Json
  onesModulus : OnesModulus

/-- The settings of a configuration before they are checked. -/
structure Settings where
  name : Json := .string (Text.of "CHIP-8")
  instructionsPerSecond : Json := .int 700
  timerHz : Json := .int 60
  randomSeed : Json := .null
  onesModulus : Json := .int 100

/-- The two rates. -/
inductive Rate where
  /-- Instructions per second. -/
  | instructions
  /-- Timer ticks per second. -/
  | timer
  deriving DecidableEq, Repr

/-- Why settings make no configuration. -/
inductive ConfigError where
  /-- There is no setting of this name. -/
  | unknownField (name : Text)
  /-- A rate is no number, so it cannot be compared with zero. -/
  | notANumber (rate : Rate)
  /-- A rate is at most zero. -/
  | notPositive (rate : Rate) (value : Number)
  /-- The modulus is neither ten nor a hundred. -/
  | badModulus (value : Json)
  /-- A number is too large to be divided as a real. -/
  | rateTooLarge

/-- The public names of the settings. -/
structure FieldNames where
  name : Text := Text.of "name"
  instructionsPerSecond : Text := Text.of "instructions_per_second"
  timerHz : Text := Text.of "timer_hz"
  randomSeed : Text := Text.of "random_seed"
  onesModulus : Text := Text.of "bcd_ones_modulus"

/-- The public names of the settings. -/
def fieldNames : FieldNames := {}

/-- The public name of a rate. -/
def Rate.fieldName : Rate → Text
  | .instructions => fieldNames.instructionsPerSecond
  | .timer => fieldNames.timerHz

/-- What is said of settings that make no configuration, where anything is. -/
def ConfigError.message? : ConfigError → Option Text
  | .notPositive rate value =>
    some (value.toJson.messageOn
      (rate.fieldName ++ Text.of " must be positive, got " ++ value.toJson.shown))
  | .badModulus value =>
    some (value.messageOn
      (fieldNames.onesModulus ++ Text.of " must be one of (10, 100), got " ++ value.shown))
  | .unknownField _ | .notANumber _ | .rateTooLarge => none

namespace Settings

/-- A rate that is a number above zero. -/
def checkRate (rate : Rate) (value : Json) : Except ConfigError Number :=
  match value.number? with
  | none => .error (.notANumber rate)
  | some n => if n.isNonpositive then .error (.notPositive rate n) else .ok n

/-- The modulus that a value counts as. -/
def checkModulus (value : Json) : Except ConfigError OnesModulus :=
  match OnesModulus.ofJson? value with
  | some m => .ok m
  | none => .error (.badModulus value)

/-- The configuration of settings; of several faults the first in the order of
the settings is the one reported. -/
def check (s : Settings) : Except ConfigError Config := do
  let ips ← checkRate .instructions s.instructionsPerSecond
  let hz ← checkRate .timer s.timerHz
  let modulus ← checkModulus s.onesModulus
  pure ⟨s.name, ips, hz, s.randomSeed, modulus⟩

/-! ### What is accepted -/

variable {rate : Rate} {v : Json} {n : Int} {r : Number} {m : OnesModulus} {s : Settings}
  {c : Config}

theorem checkRate_eq_ok_iff :
    checkRate rate v = .ok r ↔ v.number? = some r ∧ r.isNonpositive = false := by
  unfold checkRate
  cases v.number? with
  | none => simp
  | some k =>
    simp only [Option.some.injEq]
    by_cases low : k.isNonpositive = true
    · rw [if_pos low]
      constructor
      · intro h
        cases h
      · rintro ⟨rfl, above⟩
        exact absurd low (by simp [above])
    · rw [if_neg low, Except.ok.injEq]
      constructor
      · rintro rfl
        exact ⟨rfl, eq_false_of_ne_true low⟩
      · exact And.left

/-- A whole number is a rate from one on. -/
theorem checkRate_int_iff : checkRate rate (.int n) = .ok r ↔ 1 ≤ n ∧ r = .int n := by
  rw [checkRate_eq_ok_iff]
  constructor
  · rintro ⟨same, above⟩
    obtain rfl := Option.some.inj same
    have above : ¬n ≤ 0 := of_decide_eq_false above
    exact ⟨by omega, rfl⟩
  · rintro ⟨positive, rfl⟩
    exact ⟨rfl, decide_eq_false (by omega)⟩

/-- Of the whole numbers ten and a hundred are a modulus. -/
theorem checkModulus_int_iff :
    checkModulus (.int n) = .ok m ↔ (n = 10 ∨ n = 100) ∧ m.toJson = .int n := by
  by_cases ten : n = 10
  · subst ten
    cases m <;> simp [checkModulus, OnesModulus.ofJson?, OnesModulus.toJson]
  · by_cases hundred : n = 100
    · subst hundred
      cases m <;> simp [checkModulus, OnesModulus.ofJson?, OnesModulus.toJson]
    · simp [checkModulus, OnesModulus.ofJson?, ten, hundred]

/-- Of two things done one after the other the result is that of the second. -/
theorem bind_eq_ok_iff {ε α β : Type} {x : Except ε α} {next : α → Except ε β} {b : β} :
    x >>= next = .ok b ↔ ∃ a, x = .ok a ∧ next a = .ok b := by
  cases x <;> simp [bind, Except.bind]

/-- Settings are accepted if each that is checked is. -/
theorem check_eq_ok_iff :
    s.check = .ok c ↔ checkRate .instructions s.instructionsPerSecond = .ok c.instructionsPerSecond ∧
      checkRate .timer s.timerHz = .ok c.timerHz ∧ checkModulus s.onesModulus = .ok c.onesModulus ∧
      s.name = c.name ∧ s.randomSeed = c.randomSeed := by
  simp only [check, bind_eq_ok_iff, pure, Except.pure, Except.ok.injEq]
  constructor
  · rintro ⟨ips, ips_ok, hz, hz_ok, modulus, modulus_ok, rfl⟩
    exact ⟨ips_ok, hz_ok, modulus_ok, rfl, rfl⟩
  · rintro ⟨ips_ok, hz_ok, modulus_ok, name, seed⟩
    exact ⟨_, ips_ok, _, hz_ok, _, modulus_ok, by rw [name, seed]⟩

end Settings

namespace Config

/-- The configuration of the settings as they are unless given. -/
def standard : Config := ⟨.string (Text.of "CHIP-8"), .int 700, .int 60, .null, .hundred⟩

theorem check_standard : Settings.check {} = .ok standard := rfl

/-- The configuration of some settings by name; the others are as usual. A name
that is none is reported before any value is looked at. -/
def ofFields (fields : List (Text × Json)) : Except ConfigError Config :=
  let names := fieldNames
  let known := [names.name, names.instructionsPerSecond, names.timerHz, names.randomSeed,
    names.onesModulus]
  match fields.find? fun (name, _) => !known.contains name with
  | some (name, _) => .error (.unknownField name)
  | none =>
    let usual : Settings := {}
    let given (name : Text) (value : Json) := (fields.lookup name).getD value
    Settings.check {
      name := given names.name usual.name
      instructionsPerSecond := given names.instructionsPerSecond usual.instructionsPerSecond
      timerHz := given names.timerHz usual.timerHz
      randomSeed := given names.randomSeed usual.randomSeed
      onesModulus := given names.onesModulus usual.onesModulus }

theorem ofFields_nil : ofFields [] = .ok standard := rfl

/-- The configuration of a named variant; a name that is none means the plain
machine. -/
def forModel (model : Text) : Config :=
  if model = Text.of "CHIP-8-BCD" then
    { standard with name := .string (Text.of "CHIP-8 (decimal BCD)"), onesModulus := .ten }
  else standard

/-- A rate as a real number; whole numbers beyond the range have none. -/
def realRate : Number → Except ConfigError Binary64
  | .real x => .ok x
  | .int n =>
    match Binary64.ofInt n with
    | .infinite _ => .error .rateTooLarge
    | x => .ok x
  | .bool b => .ok (.ofInt (Number.ofBool b))

/-- How often one rate goes into another, whole numbers staying whole. -/
def floorRatio (a b : Number) : Except ConfigError Number :=
  match a.toJson.wholeNumber?, b.toJson.wholeNumber? with
  | some m, some n => .ok (.int (m.fdiv n))
  | _, _ => do
    let x ← realRate a
    let y ← realRate b
    pure (.real (x.floorQuotient y))

/-- The larger of one and a number; one if the number cannot be compared. -/
def atLeastOne : Number → Number
  | .real x => if (Binary64.ofInt 1).lt x then .real x else .int 1
  | .int n => .int (max 1 n)
  | .bool _ => .int 1

/-- How many instructions there are between two timer ticks, at least one. -/
def instructionsPerFrame (c : Config) : Except ConfigError Number :=
  (floorRatio c.instructionsPerSecond c.timerHz).map atLeastOne

/-- For whole rates it is the floor of their quotient, or one. -/
theorem instructionsPerFrame_int {c : Config} {m n : Int}
    (hm : c.instructionsPerSecond = .int m) (hn : c.timerHz = .int n) :
    c.instructionsPerFrame = .ok (.int (max 1 (m.fdiv n))) := by
  simp [instructionsPerFrame, floorRatio, hm, hn, Number.toJson, Json.wholeNumber?, atLeastOne,
    Except.map]

/-- The settings of a configuration as an object. -/
def toJson (c : Config) : Json := .object [
  (fieldNames.name, c.name),
  (fieldNames.instructionsPerSecond, c.instructionsPerSecond.toJson),
  (fieldNames.timerHz, c.timerHz.toJson),
  (fieldNames.randomSeed, c.randomSeed),
  (fieldNames.onesModulus, c.onesModulus.toJson)]

/-- Whether two configurations have the same values in every setting. -/
def sameValue (c d : Config) : Bool := c.toJson.sameValue d.toJson

end Config

end ChipEight
