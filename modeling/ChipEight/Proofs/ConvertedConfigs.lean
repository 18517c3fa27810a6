/-
# Configurations from data

What is stored may have anything where a number is meant. It is converted first
and checked then, so the numbers of a configuration that comes of it are whole:
two rates of at least one and a modulus of ten or a hundred. Machines and
consoles on such a configuration can be depended on, whatever the data were.

A real is cut off, so as a rate it must be at least one, and as a modulus lie
from ten up to eleven, or from a hundred up to a hundred and one. Members of
other names have no part in any of this.

No configuration helps against a key that a frame names by a number too long for
a message; that one fault stays outside the family.

Key definitions: `Config.CountsAs`, `Config.given`, `Config.Converted`.
Key theorems: `Config.wholeOf_eq_ok_iff`, `Config.CountsAs.le_real_iff`,
`Config.ofJson_eq_ok_iff`, `Config.ofMembers_congr`,
`Config.configs_from_data_are_dependable`,
`Config.overlong_key_stops_frame_of_usual_config`.
-/
import ChipEight.Config.Stored
import ChipEight.Proofs.DependableConfigs
import ChipEight.Proofs.Numerals

namespace ChipEight

/-! ### Whole parts -/

namespace Binary64

variable {x : Binary64} {n : Int} {d : Nat}

theorem denominator_pos (value : x.fraction? = some (n, d)) : 0 < d := by
  cases x with
  | nan => cases value
  | infinite => cases value
  | finite negative m e =>
    obtain ⟨-, rfl⟩ := Prod.mk.inj (Option.some.inj value)
    exact Nat.two_pow_pos _

/-- Cutting off toward zero keeps what is above a positive number there. -/
theorem le_tdiv_iff {n k d : Int} (positive : 0 < k) (d_pos : 0 < d) :
    k ≤ n.tdiv d ↔ k * d ≤ n := by
  by_cases sign : 0 ≤ n
  · rw [Int.tdiv_eq_ediv_of_nonneg sign, Int.le_ediv_iff_mul_le d_pos]
  · have cut : n.tdiv d = -((-n) / d) := by
      rw [← Int.tdiv_eq_ediv_of_nonneg (by omega), Int.neg_tdiv, Int.neg_neg]
    have below : 0 ≤ (-n) / d := Int.ediv_nonneg (by omega) (Int.le_of_lt d_pos)
    have above : 0 < k * d := Int.mul_pos positive d_pos
    constructor
    · intro
      omega
    · intro
      omega

end Binary64

namespace Config

/-! ### Values that count as whole numbers -/

/-- A value counts as a whole number. -/
inductive CountsAs : Json → Int → Prop
  | int (n : Int) : CountsAs (.int n) n
  | bool (b : Bool) : CountsAs (.bool b) (if b then 1 else 0)
  /-- A real is cut off toward zero. -/
  | real {x : Binary64} {n : Int} {d : Nat} (value : x.fraction? = some (n, d)) :
    CountsAs (.real x) (n.tdiv d)
  | numeral {t : Text} {n : Int} (read : Numeral.read t = .ok n) : CountsAs (.string t) n

variable {v : Json} {x : Binary64} {k n : Int} {d : Nat}

/-- What is converted is what counts as a whole number. -/
theorem wholeOf_eq_ok_iff : wholeOf v = .ok k ↔ CountsAs v k := by
  constructor
  · intro converted
    cases v with
    | int =>
      cases converted
      exact .int _
    | bool =>
      cases converted
      exact .bool _
    | real x =>
      cases x with
      | nan => cases converted
      | infinite => cases converted
      | finite negative m e =>
        cases converted
        exact .real rfl
    | string t =>
      simp only [wholeOf] at converted
      split at converted
      · next read =>
        cases converted
        exact .numeral read
      · cases converted
      · cases converted
    | null => cases converted
    | array => cases converted
    | object => cases converted
  · intro counts
    cases counts with
    | int => rfl
    | bool b => cases b <;> rfl
    | @real x n d value =>
      have cut : x.truncate? = some (n.tdiv d) := by rw [Binary64.truncate?, value, Option.map_some]
      cases x with
      | nan => cases value
      | infinite => cases value
      | finite => simp only [wholeOf, cut]
    | numeral read => simp only [wholeOf, read]

theorem CountsAs.unique (counts : CountsAs v k) (counts' : CountsAs v n) : k = n :=
  Except.ok.inj ((wholeOf_eq_ok_iff.2 counts).symm.trans (wholeOf_eq_ok_iff.2 counts'))

/-- A real counts as a positive number or more if it is as much. -/
theorem CountsAs.le_real_iff (counts : CountsAs (.real x) n) {num : Int}
    (value : x.fraction? = some (num, d)) (positive : 0 < k) : k ≤ n ↔ k * d ≤ num := by
  rw [counts.unique (.real value)]
  exact Binary64.le_tdiv_iff positive (Int.natCast_pos.2 (Binary64.denominator_pos value))

/-- So it counts as one exactly from there up to the next. -/
theorem countsAs_real_iff {num : Int} (value : x.fraction? = some (num, d)) (positive : 0 < k) :
    CountsAs (.real x) k ↔ k * d ≤ num ∧ num < (k + 1) * d := by
  have counts : CountsAs (.real x) (num.tdiv d) := .real value
  have from_below := counts.le_real_iff value positive
  have from_above := counts.le_real_iff value (k := k + 1) (by omega)
  constructor
  · intro counts'
    have same := counts'.unique counts
    exact ⟨from_below.1 (by omega), Int.not_le.1 fun above => by
      have := from_above.2 above
      omega⟩
  · rintro ⟨low, high⟩
    have low := from_below.2 low
    have high : ¬k + 1 ≤ num.tdiv d := fun above => Int.not_le.2 high (from_above.1 above)
    have same : num.tdiv d = k := by omega
    rwa [same] at counts

/-! ### Objects that are accepted -/

/-- The names that settings have. -/
def settingNames : List Text :=
  [fieldNames.name, fieldNames.instructionsPerSecond, fieldNames.timerHz, fieldNames.randomSeed,
    fieldNames.onesModulus]

/-- What an object has for a setting, or else what is usual. -/
def given (members : List (Text × Json)) (name : Text) (usual : Json) : Json :=
  (members.lookup name).getD usual

/-- A configuration has the settings of an object, the numbers of it converted and
within their bounds. -/
structure Converted (members : List (Text × Json)) (c : Config) : Prop where
  name : c.name = given members fieldNames.name (.string (Text.of "CHIP-8"))
  instructions : ∃ n : Int, 1 ≤ n ∧
    CountsAs (given members fieldNames.instructionsPerSecond (.int 700)) n ∧
    c.instructionsPerSecond = .int n
  timer : ∃ n : Int, 1 ≤ n ∧
    CountsAs (given members fieldNames.timerHz (.int 60)) n ∧ c.timerHz = .int n
  seed : c.randomSeed = given members fieldNames.randomSeed .null
  modulus : ∃ n : Int, (n = 10 ∨ n = 100) ∧
    CountsAs (given members fieldNames.onesModulus (.int 100)) n ∧ c.onesModulus.toJson = .int n

variable {members others : List (Text × Json)} {c : Config} {rate : Rate}

theorem mapError_eq_ok_iff {ε δ α : Type} {y : Except ε α} {f : ε → δ} {a : α} :
    y.mapError f = .ok a ↔ y = .ok a := by
  cases y <;> simp [Except.mapError]

/-- **An object is accepted if what its numbers are converted to is within the bounds.** -/
theorem ofJson_eq_ok_iff : ofJson (.object members) = .ok c ↔ Converted members c := by
  simp only [ofJson, ofMembers, Settings.bind_eq_ok_iff, mapError_eq_ok_iff,
    Settings.check_eq_ok_iff, Settings.checkRate_int_iff, Settings.checkModulus_int_iff,
    wholeOf_eq_ok_iff]
  constructor
  · rintro ⟨ips, ips_counts, hz, hz_counts, modulus, modulus_counts, ⟨ips_pos, ips_same⟩,
      ⟨hz_pos, hz_same⟩, ⟨ten_or_hundred, modulus_same⟩, name, seed⟩
    exact ⟨name.symm, ⟨ips, ips_pos, ips_counts, ips_same⟩, ⟨hz, hz_pos, hz_counts, hz_same⟩,
      seed.symm, ⟨modulus, ten_or_hundred, modulus_counts, modulus_same⟩⟩
  · rintro ⟨name, ⟨ips, ips_pos, ips_counts, ips_same⟩, ⟨hz, hz_pos, hz_counts, hz_same⟩, seed,
      ⟨modulus, ten_or_hundred, modulus_counts, modulus_same⟩⟩
    exact ⟨ips, ips_counts, hz, hz_counts, modulus, modulus_counts, ⟨ips_pos, ips_same⟩,
      ⟨hz_pos, hz_same⟩, ⟨ten_or_hundred, modulus_same⟩, name.symm, seed.symm⟩

/-- A text is accepted if it is that of an object which is. -/
theorem ofText_eq_ok_iff {t : Text} : ofText t = .ok c ↔
    ∃ members, Json.read t = .ok (.object members) ∧ ofJson (.object members) = .ok c := by
  unfold ofText
  cases Json.read t with
  | error e => cases e <;> simp
  | ok v => cases v <;> simp [ofJson]

/-- What comes of an object hangs on its name and its seed, and on what its numbers
are converted to. -/
theorem ofMembers_congr (name : members.lookup fieldNames.name = others.lookup fieldNames.name)
    (seed : members.lookup fieldNames.randomSeed = others.lookup fieldNames.randomSeed)
    (numbers : ∀ name ∈ [fieldNames.instructionsPerSecond, fieldNames.timerHz,
      fieldNames.onesModulus], ∀ usual,
      wholeOf (given members name usual) = wholeOf (given others name usual)) :
    ofMembers members = ofMembers others := by
  simp only [List.forall_mem_cons] at numbers
  obtain ⟨ips, hz, modulus, -⟩ := numbers
  simp only [given] at ips hz modulus
  simp only [ofMembers, name, seed, ips, hz, modulus]

/-- Members of other names have no part in it. -/
theorem ofJson_congr (same : ∀ name ∈ settingNames, members.lookup name = others.lookup name) :
    ofJson (.object members) = ofJson (.object others) := by
  simp only [settingNames, List.forall_mem_cons] at same
  obtain ⟨name, ips, hz, seed, modulus, -⟩ := same
  apply ofMembers_congr name seed
  simp only [List.forall_mem_cons, given, ips, hz, modulus, implies_true, true_and]
  exact List.forall_mem_nil _

/-- A value that is less than one when converted is no rate. -/
theorem not_ofJson_of_rate (here : members.lookup rate.fieldName = some v)
    (low : ∀ n, CountsAs v n → n < 1) : ofJson (.object members) ≠ .ok c := by
  intro accepted
  obtain ⟨-, ⟨ips, ips_pos, ips_counts, -⟩, ⟨hz, hz_pos, hz_counts, -⟩, -, -⟩ :=
    ofJson_eq_ok_iff.1 accepted
  cases rate with
  | instructions =>
    have here : members.lookup fieldNames.instructionsPerSecond = some v := here
    rw [given, here] at ips_counts
    exact absurd (low ips ips_counts) (by omega)
  | timer =>
    have here : members.lookup fieldNames.timerHz = some v := here
    rw [given, here] at hz_counts
    exact absurd (low hz hz_counts) (by omega)

/-- A modulus is as good as the whole number that it is converted to. -/
theorem ofJson_of_modulus (here : members.lookup fieldNames.onesModulus = some v)
    (counts : CountsAs v n) :
    ofJson (.object members) = ofJson (.object ((fieldNames.onesModulus, .int n) :: members)) := by
  have other : ∀ name, name ≠ fieldNames.onesModulus →
      members.lookup name = ((fieldNames.onesModulus, .int n) :: members).lookup name := by
    intro name differ
    rw [List.lookup_cons, beq_false_of_ne differ]
  have rates : ∀ name, name ≠ fieldNames.onesModulus → ∀ usual, wholeOf (given members name usual) =
      wholeOf (given ((fieldNames.onesModulus, .int n) :: members) name usual) := by
    intro name differ usual
    rw [given, given, other name differ]
  apply ofMembers_congr (other _ (by decide)) (other _ (by decide))
  simp only [List.forall_mem_cons]
  refine ⟨rates _ (by decide), rates _ (by decide), fun usual => ?_, List.forall_mem_nil _⟩
  rw [given, given, here, List.lookup_cons_self, Option.getD_some, Option.getD_some,
    wholeOf_eq_ok_iff.2 counts]
  rfl

/-! ### Safe to run -/

/-- A decimal with one place. -/
def tenths (n : Nat) : Json := .real (.ofDecimal false n (-1))

theorem lt_one_of_countsAs_tenths (counts : CountsAs (tenths 9) n) : n < 1 := by
  have value : (Binary64.ofDecimal false 9 (-1)).fraction? =
      some (8106479329266893, 9007199254740992) := by decide +kernel
  have floor := counts.le_real_iff value (k := 1) (by omega)
  omega

theorem countsAs_tenths : CountsAs (tenths 109) 10 := by
  have value : (Binary64.ofDecimal false 109 (-1)).fraction? =
      some (6136154492292301, 562949953421312) := by decide +kernel
  exact (countsAs_real_iff value (by omega)).2 (by omega)

theorem Converted.wholeModulus (converted : Converted members c) : c.WholeModulus := by
  obtain ⟨n, -, -, same⟩ := converted.modulus
  unfold WholeModulus
  cases given : c.onesModulus with
  | ten => exact .inl rfl
  | hundred => exact .inr rfl
  | realTen => rw [given] at same; cases same
  | realHundred => rw [given] at same; cases same

/-- **Configurations from data are safe to run.** An object is accepted exactly if its numbers
are within the bounds once they are converted, and a text if its object is; members of other
names have no part in it. What is accepted has whole rates of at least one and the whole modulus
ten or a hundred, and can be depended on. -/
theorem configs_from_data_are_dependable (members : List (Text × Json)) :
    (∀ c, ofJson (.object members) = .ok c ↔ Converted members c) ∧
    (∀ t c, ofText t = .ok c ↔
      ∃ members, Json.read t = .ok (.object members) ∧ ofJson (.object members) = .ok c) ∧
    (∀ others, (∀ name ∈ settingNames, members.lookup name = others.lookup name) →
      ofJson (.object members) = ofJson (.object others)) ∧
    (∀ (rate : Rate) v, v = tenths 9 ∨ v = .bool false →
      members.lookup rate.fieldName = some v → ∀ c, ofJson (.object members) ≠ .ok c) ∧
    (members.lookup fieldNames.onesModulus = some (tenths 109) → ofJson (.object members) =
      ofJson (.object ((fieldNames.onesModulus, .int 10) :: members))) ∧
    ∀ c, ofJson (.object members) = .ok c →
      (∃ modulus : Int, (modulus = 10 ∨ modulus = 100) ∧ c.onesModulus.toJson = .int modulus) ∧
      (∃ ips hz b : Int, 1 ≤ ips ∧ 1 ≤ hz ∧
        c.instructionsPerSecond = .int ips ∧ c.timerHz = .int hz ∧
        b = max 1 ⌊(ips : ℚ) / hz⌋ ∧ 1 ≤ b ∧ c.instructionsPerFrame = .ok (.int b)) ∧
      (c.randomSeed = .null → Supply.ofSeed c.randomSeed = .ok none) ∧
      (∀ n, c.randomSeed = .int n → Supply.ofSeed c.randomSeed = .ok (some (.seeded n))) ∧
      c.Dependable := by
  refine ⟨fun c => ofJson_eq_ok_iff, fun t c => ofText_eq_ok_iff, fun others => ofJson_congr,
    ?rejected, fun here => ofJson_of_modulus here countsAs_tenths, ?safe⟩
  case rejected =>
    intro rate v low here c
    apply not_ofJson_of_rate here
    intro n counts
    rcases low with rfl | rfl
    · exact lt_one_of_countsAs_tenths counts
    · cases counts
      decide
  case safe =>
    intro c accepted
    have converted := ofJson_eq_ok_iff.1 accepted
    obtain ⟨ips, ips_pos, -, ips_same⟩ := converted.instructions
    obtain ⟨hz, hz_pos, -, hz_same⟩ := converted.timer
    obtain ⟨modulus, ten_or_hundred, -, modulus_same⟩ := converted.modulus
    have size := instructionsPerFrame_floor ips_same hz_same (by omega)
    refine ⟨⟨modulus, ten_or_hundred, modulus_same⟩,
      ⟨ips, hz, _, ips_pos, hz_pos, ips_same, hz_same, rfl, le_max_left _ _, size⟩, ?_, ?_, ?_⟩
    · intro none
      rw [none]
      rfl
    · intro n seed
      rw [seed]
      rfl
    · exact dependable_iff.2 ⟨converted.wholeModulus, _, size⟩

/-- A rate as a text, one that is true, a modulus of `10.9` and a member that is no
setting. -/
def mixedMembers : List (Text × Json) :=
  [(fieldNames.instructionsPerSecond, .string (Text.of " 7_00 ")), (fieldNames.timerHz, .bool true),
    (fieldNames.onesModulus, tenths 109), (Text.of "colour", .null)]

/-- They make a configuration, of which a frame runs seven hundred instructions. Without the
last of them it is the same, and so it is with the modulus that is whole; with `0.9` or false
for the timer there is none. -/
theorem mixed_members_are_dependable : ∃ c, ofJson (.object mixedMembers) = .ok c ∧
    c.onesModulus = .ten ∧ c.instructionsPerFrame = .ok (.int 700) ∧ c.Dependable ∧
    ofJson (.object (mixedMembers.take 3)) = .ok c ∧
    ofJson (.object ((fieldNames.onesModulus, .int 10) :: mixedMembers)) = .ok c ∧
    ∀ d, ofJson (.object ((fieldNames.timerHz, tenths 9) :: mixedMembers)) ≠ .ok d ∧
      ofJson (.object ((fieldNames.timerHz, .bool false) :: mixedMembers)) ≠ .ok d := by
  obtain ⟨accepted, -, ignored, -, modulus, safe⟩ := configs_from_data_are_dependable mixedMembers
  have read : Numeral.read (Text.of " 7_00 ") = .ok 700 := by decide +kernel
  have here := (accepted { standard with timerHz := .int 1, onesModulus := .ten }).2
    ⟨rfl, ⟨700, by decide, .numeral read, rfl⟩, ⟨1, by decide, .bool true, rfl⟩, rfl,
      ⟨10, by decide, countsAs_tenths, rfl⟩⟩
  obtain ⟨-, ⟨ips, hz, b, -, -, ips_same, hz_same, size, -, sized⟩, -, -, dependable⟩ :=
    safe _ here
  obtain rfl := Number.int.inj ips_same
  obtain rfl := Number.int.inj hz_same
  have batch : b = 700 := by
    rw [size]
    norm_num
  have fewer : ∀ name ∈ settingNames,
      mixedMembers.lookup name = (mixedMembers.take 3).lookup name := by
    simp only [settingNames, List.forall_mem_cons]
    exact ⟨rfl, rfl, rfl, rfl, rfl, List.forall_mem_nil _⟩
  refine ⟨_, here, rfl, by rw [sized, batch], dependable, (ignored _ fewer).symm.trans here,
    (modulus rfl).symm.trans here, fun d => ⟨?_, ?_⟩⟩
  · obtain ⟨-, -, -, rejected, -, -⟩ := configs_from_data_are_dependable
      ((fieldNames.timerHz, tenths 9) :: mixedMembers)
    exact rejected .timer _ (.inl rfl) rfl d
  · obtain ⟨-, -, -, rejected, -, -⟩ := configs_from_data_are_dependable
      ((fieldNames.timerHz, .bool false) :: mixedMembers)
    exact rejected .timer _ (.inr rfl) rfl d

/-- What is accepted does not keep the keys of a frame short. Of the object without
members there is a configuration, and a frame that presses a key whose number has
4301 digits faults outside the family. -/
theorem overlong_key_stops_frame_of_usual_config :
    (∃ c, ofJson (.object []) = .ok c ∧ c.randomSeed = .null ∧
      (Console.runFrame { press := [.int Numeral.leastLong] }
        (.ofMachine (Machine.powerOn c (Supply.constant 0xAB)) none)).1 = .error .numeralTooLong) ∧
    ¬Fault.numeralTooLong.InFamily ∧
    ¬∀ members c, ofJson (.object members) = .ok c → c.randomSeed = .null →
      ∀ (press : List Int) (f : Fault), (Console.runFrame { press := press.map .int }
        (.ofMachine (Machine.powerOn c (Supply.constant 0xAB)) none)).1 = .error f → f.InFamily := by
  have accepted : ofJson (.object []) = .ok standard := rfl
  have stops := frame_of_long_key (c := standard) Numeral.not_short_leastLong
    (Machine.powerOn standard (Supply.constant 0xAB)) 0
  refine ⟨⟨_, accepted, rfl, stops⟩, by decide, fun all => ?_⟩
  exact absurd (all _ _ accepted rfl [Numeral.leastLong] _ stops) (by decide)

end Config

end ChipEight
