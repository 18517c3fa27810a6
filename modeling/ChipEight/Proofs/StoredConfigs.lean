/-
# Saved configurations are read back

A configuration whose name is a text, whose rates and modulus are whole numbers
and whose seed is a whole number or none is told in full by its object and by
the text that it is saved as. Both give it back, so saving what was loaded
writes the same text again. The text has a line for each setting, in the order
of the settings, and is in ASCII.

What makes that work is that reading converts nothing here. The rates and the
modulus go through `Config.wholeOf`, which leaves whole numbers alone, and the
check that follows asks of them what it asked of the settings. Numbers that
would be changed by it are kept out: a rate that is a truth value comes back as
a whole number.

Key definitions: `PlainSettings`, `PlainSettings.Storable`, `PlainSettings.text`.
Key theorems: `PlainSettings.Storable.check`, `Config.ofJson_toJson`,
`Config.toText_config`, `Config.saved_config_is_read_back`.
-/
import ChipEight.Config.Stored
import ChipEight.Proofs.JsonTexts

namespace ChipEight

/-! ### Plain settings -/

/-- The settings of a configuration, each of the type that is meant for it. -/
structure PlainSettings where
  name : Text
  instructionsPerSecond : Int
  timerHz : Int
  randomSeed : Option Int
  onesModulus : Int

namespace PlainSettings

/-- The settings as they are given. -/
def settings (p : PlainSettings) : Settings where
  name := .string p.name
  instructionsPerSecond := .int p.instructionsPerSecond
  timerHz := .int p.timerHz
  randomSeed := p.randomSeed.elim .null .int
  onesModulus := .int p.onesModulus

/-- Settings that make a configuration and that a text can tell. -/
structure Storable (p : PlainSettings) : Prop where
  characters : ∀ c ∈ p.name, c.isValidChar
  instructions_pos : 0 < p.instructionsPerSecond
  instructions_short : Numeral.Short p.instructionsPerSecond
  timer_pos : 0 < p.timerHz
  timer_short : Numeral.Short p.timerHz
  seed_short : ∀ n ∈ p.randomSeed, Numeral.Short n
  ten_or_hundred : p.onesModulus = 10 ∨ p.onesModulus = 100

/-- A setting as it stands on its line. -/
def line (name value : Text) : Text := Text.of "  \"" ++ name ++ Text.of "\": " ++ value

/-- The text that tells the settings: an object with a line for each of them. -/
def text (p : PlainSettings) : Text :=
  Text.of "\x7b\n" ++ (Text.of ",\n").intercalate [
      line fieldNames.name (Json.quote p.name),
      line fieldNames.instructionsPerSecond (Numeral.decimal p.instructionsPerSecond),
      line fieldNames.timerHz (Numeral.decimal p.timerHz),
      line fieldNames.randomSeed (p.randomSeed.elim (Text.of "null") Numeral.decimal),
      line fieldNames.onesModulus (Numeral.decimal p.onesModulus)]
    ++ Text.of "\n\x7d"

/-- The modulus of ten or a hundred. -/
def modulus (p : PlainSettings) : OnesModulus := if p.onesModulus = 10 then .ten else .hundred

/-- The configuration of plain settings. -/
def config (p : PlainSettings) : Config where
  name := .string p.name
  instructionsPerSecond := .int p.instructionsPerSecond
  timerHz := .int p.timerHz
  randomSeed := p.randomSeed.elim .null .int
  onesModulus := p.modulus

variable {p : PlainSettings}

theorem Storable.toJson_modulus (h : p.Storable) : p.modulus.toJson = .int p.onesModulus := by
  rcases h.ten_or_hundred with ten | hundred
  · rw [modulus, if_pos ten, ten]
    rfl
  · rw [modulus, if_neg (by omega), hundred]
    rfl

/-- Storable settings are accepted. -/
theorem Storable.check (h : p.Storable) : p.settings.check = .ok p.config :=
  Settings.check_eq_ok_iff.2 ⟨Settings.checkRate_int_iff.2 ⟨h.instructions_pos, rfl⟩,
    Settings.checkRate_int_iff.2 ⟨h.timer_pos, rfl⟩,
    Settings.checkModulus_int_iff.2 ⟨h.ten_or_hundred, h.toJson_modulus⟩, rfl, rfl⟩

/-- Its object has the settings as they were given. -/
theorem Storable.toJson_config (h : p.Storable) : p.config.toJson = .object [
    (fieldNames.name, .string p.name),
    (fieldNames.instructionsPerSecond, .int p.instructionsPerSecond),
    (fieldNames.timerHz, .int p.timerHz),
    (fieldNames.randomSeed, p.randomSeed.elim .null .int),
    (fieldNames.onesModulus, .int p.onesModulus)] := by
  rw [← h.toJson_modulus]
  rfl

end PlainSettings

/-! ### From the object and from the text -/

namespace Config

open PlainSettings

variable {p : PlainSettings}

/-- **The object gives the configuration back.** -/
theorem ofJson_toJson (h : p.Storable) : ofJson p.config.toJson = .ok p.config := by
  have checked : ofJson p.config.toJson = p.settings.check.mapError .config := by
    rw [h.toJson_config]
    rfl
  rw [checked, h.check]
  rfl

theorem plain_toJson (h : p.Storable) : p.config.toJson.Plain := by
  have seed : Json.Plain (p.randomSeed.elim .null .int) := by
    cases given : p.randomSeed with
    | none => exact .null
    | some n => exact .int (Numeral.short_iff.1 (h.seed_short n given))
  have modulus_short : Numeral.Short p.onesModulus := by
    rcases h.ten_or_hundred with ten | hundred
    · rw [ten]
      decide
    · rw [hundred]
      decide
  have names : ∀ name ∈ [fieldNames.name, fieldNames.instructionsPerSecond, fieldNames.timerHz,
      fieldNames.randomSeed, fieldNames.onesModulus], ∀ c ∈ name, c.isValidChar := by decide
  have once : [fieldNames.name, fieldNames.instructionsPerSecond, fieldNames.timerHz,
      fieldNames.randomSeed, fieldNames.onesModulus].Nodup := by decide
  rw [h.toJson_config]
  refine .object once (fun m hm => names m.1 (List.mem_map_of_mem hm)) ?_
  simp only [List.forall_mem_cons]
  exact ⟨.string h.characters, .int (Numeral.short_iff.1 h.instructions_short),
    .int (Numeral.short_iff.1 h.timer_short), seed, .int (Numeral.short_iff.1 modulus_short),
    fun _ none => absurd none List.not_mem_nil⟩

/-- The text tells the settings one to a line. -/
theorem toText_config (h : p.Storable) : p.config.toText = p.text := by
  have seed : Json.writeAt .indented 1 (p.randomSeed.elim .null .int) =
      p.randomSeed.elim (Text.of "null") Numeral.decimal := by
    cases p.randomSeed <;> rfl
  rw [toText, h.toJson_config]
  simp only [Json.write, Json.writeAt, Json.writeMembers, seed, text, line, List.intercalate,
    List.intersperse, List.flatten_cons, List.flatten_nil, List.append_assoc]
  rfl

/-- **The text gives the configuration back.** -/
theorem ofText_toText (h : p.Storable) : ofText p.config.toText = .ok p.config := by
  rw [ofText, toText, Json.read_write (plain_toJson h)]
  exact ofJson_toJson h

/-- **A saved configuration is read back.** Storable settings are accepted; the object and the
text of their configuration give it back, and what is loaded is saved as the same text. -/
theorem saved_config_is_read_back (h : p.Storable) :
    ∃ c : Config, p.settings.check = .ok c ∧
      ofJson c.toJson = .ok c ∧
      ofText c.toText = .ok c ∧
      (∀ d, ofText c.toText = .ok d → d.toText = c.toText) ∧
      c.toText = p.text ∧
      Json.Ascii c.toText := by
  refine ⟨p.config, h.check, ofJson_toJson h, ofText_toText h, fun d loaded => ?_,
    toText_config h, (plain_toJson h).ascii .indented 0⟩
  rw [ofText_toText h] at loaded
  rw [Except.ok.inj loaded]

/-- A name with each kind of escape: a quotation mark, a backslash, a line feed, two control
characters without a short form, an accented letter, a code point next to the surrogates, and two
beyond sixteen bits. -/
def escapedSettings : PlainSettings where
  name := [0x41, 0x22, 0x5C, 0x0A, 0x00, 0x1F, 0x7F, 0xE9, 0xD7FF, 0xFFFF, 0x10000, 0x1F600]
  instructionsPerSecond := 12345678901234567890
  timerHz := 1
  randomSeed := some (-1)
  onesModulus := 10

theorem storable_escapedSettings : escapedSettings.Storable where
  characters := by decide
  instructions_pos := by decide
  instructions_short := by decide
  timer_pos := by decide
  timer_short := by decide
  seed_short := by decide
  ten_or_hundred := by decide

theorem escaped_config_is_read_back :
    escapedSettings.Storable ∧
      Json.quote escapedSettings.name = Text.of ("\"A\\\"\\\\\\n\\u0000\\u001f\\u007f\\u00e9"
        ++ "\\ud7ff\\uffff\\ud800\\udc00\\ud83d\\ude00\"") ∧
      ∃ c : Config, escapedSettings.settings.check = .ok c ∧
        ofJson c.toJson = .ok c ∧ ofText c.toText = .ok c ∧
        (∀ d, ofText c.toText = .ok d → d.toText = c.toText) ∧
        c.toText = escapedSettings.text ∧ Json.Ascii c.toText :=
  ⟨storable_escapedSettings, by decide +kernel, saved_config_is_read_back storable_escapedSettings⟩

end Config

end ChipEight
