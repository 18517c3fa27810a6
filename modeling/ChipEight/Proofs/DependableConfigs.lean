/-
# Configurations to depend on

What a host would like of the machines and consoles on a configuration, in every
history: that whatever faults is a fault of the machine's own family, so that a
host which catches those misses none, and that `FX33` stores all three digits or
none of them.

Both hang on two numbers being whole: the modulus, whose last digit is a byte
then, and the size of the batch that a frame runs by default. The settings are
checked by what they count, and a real that counts as much passes; so of the
configurations that are accepted those are dependable whose numbers are whole.

Of a frame that goes for the frames whose keys can be shown in a message. A key
whose number is too long for that faults outside the family on any configuration.

Key definitions: `Fault.InFamily`, `FrameInputs.ShortKeys`,
`Machine.StoresDigits`, `Machine.Dependable`, `Config.Dependable`.
Key theorems: `Machine.WellFormed.dependable`,
`Machine.WellFormed.inFamily_of_frame`, `Config.dependable_iff`,
`Config.frame_of_long_key`, `Config.whole_settings_suffice`,
`Config.accepted_reals_are_not_dependable`.
-/
import ChipEight.Proofs.Bounds
import ChipEight.Proofs.Frames
import Mathlib.Data.Rat.Floor

namespace ChipEight

/-! ### Faults of the family -/

/-- The fault is one of the machine's own family. -/
def Fault.InFamily (f : Fault) : Prop := f.kind?.isSome

instance (f : Fault) : Decidable f.InFamily := inferInstanceAs (Decidable (f.kind?.isSome = true))

/-- A value that can be shown is refused as no key, be it a number or not. -/
theorem Key.inFamily_of_ofJson {v : Json} {f : Fault} (short : v.isShort)
    (h : ofJson v = .error f) : f.InFamily := by
  unfold ofJson at h
  cases whole : v.wholeNumber? with
  | some i =>
    rw [whole] at h
    obtain ⟨-, rfl⟩ := ofInt_eq_error_iff.1 h
    rw [refused_of_short (Json.short_of_wholeNumber? short whole)]
    rfl
  | none =>
    rw [whole] at h
    simp only [short, if_true] at h
    cases h
    rfl

/-- The values that a frame has for keys can all be shown in a message. -/
def FrameInputs.ShortKeys (inputs : FrameInputs) : Prop :=
  ∀ v ∈ inputs.release ++ inputs.press, v.isShort

theorem FrameInputs.shortKeys_default : ShortKeys {} := fun _ none => absurd none List.not_mem_nil

theorem FrameInputs.BadKey.inFamily {inputs : FrameInputs} {p : Keypad} {f : Fault}
    {keys : Finset Key} (h : inputs.BadKey p f keys) (short : inputs.ShortKeys) : f.InFamily := by
  cases h with
  | @release front back v _ first _ bad =>
    have here : v ∈ inputs.release := by
      rw [first]
      exact List.mem_append_cons_self
    exact Key.inFamily_of_ofJson (short v (List.mem_append_left _ here)) bad
  | @press front back v _ _ _ first _ bad =>
    have here : v ∈ inputs.press := by
      rw [first]
      exact List.mem_append_cons_self
    exact Key.inFamily_of_ofJson (short v (List.mem_append_right _ here)) bad

namespace Machine

variable {σ : Type} {m m' : Machine σ} {i : Instruction} {f : Fault}

theorem Faulty.inFamily (h : m.Faulty f) : f.InFamily := by
  cases h <;> rfl

/-- All three digits of the value in the register of an instruction have been put
into memory at the index register, and nothing else. -/
structure StoresDigits (i : Instruction) (m m' : Machine σ) : Prop where
  inside : 0 ≤ m.index ∧ m.index + 3 ≤ 4096
  cells : ∃ bytes : List UInt8,
    bytes.map UInt8.toNat = [(m.reg i.x).toNat / 100, (m.reg i.x).toNat / 10 % 10,
      (m.reg i.x).toNat % m.config.onesModulus.value] ∧
    m'.memory.toList = Memory.splice m.index.toNat bytes m.memory.toList

/-- The digits of a byte are bytes. -/
theorem toNat_written_of_bcd (wf : m.WellFormed) (op : i.opcode = .bcd) :
    (i.written m).2.map UInt8.toNat = [(m.reg i.x).toNat / 100, (m.reg i.x).toNat / 10 % 10,
      (m.reg i.x).toNat % m.config.onesModulus.value] := by
  have byte := (m.reg i.x).toNat_lt
  have small : m.config.onesModulus.value = 10 ∨ m.config.onesModulus.value = 100 := by
    rcases wf.modulus with e | e
    · exact .inl (by rw [e]; rfl)
    · exact .inr (by rw [e]; rfl)
  simp only [Instruction.written, op, List.map_cons, List.map_nil, UInt8.toNat_div,
    UInt8.toNat_mod, UInt8.toNat_ofNat']
  have last : (m.reg i.x).toNat % m.config.onesModulus.value % 2 ^ 8 =
      (m.reg i.x).toNat % m.config.onesModulus.value := by
    rcases small with e | e
    · rw [e]
      omega
    · rw [e]
      omega
  rw [last]
  rfl

variable [RandomSource σ]

/-! ### Machines -/

/-- What a host can depend on when it has a machine execute instructions. -/
structure Dependable (m : Machine σ) : Prop where
  step : ∀ f, m.step.1 = .error f → f.InFamily
  run : ∀ n f, (m.run n).1 = .error f → f.InFamily
  /-- `FX33` is done and has stored three digits, or faults and has stored none. -/
  digits : ∀ i, m.Next i → i.opcode = .bcd →
    (m.step.1 = .ok i ∧ StoresDigits i m m.step.2) ∨
      ((∃ f, m.step.1 = .error f) ∧ m.step.2.memory = m.memory)

theorem Executes.wellFormed {is : List Instruction} (h : Executes is m m') (wf : m.WellFormed) :
    m'.WellFormed := by
  induction h with
  | nil => exact wf
  | cons first rest ih =>
    apply ih
    have after := wf.step
    rwa [first] at after

theorem WellFormed.inFamily_of_step (wf : m.WellFormed) (h : m.step.1 = .error f) :
    f.InFamily :=
  ((step_error_iff wf).1 h).inFamily

theorem WellFormed.inFamily_of_run (wf : m.WellFormed) {n : Int} (h : (m.run n).1 = .error f) :
    f.InFamily := by
  obtain ⟨is, m₁, -, executes, fault⟩ := run_eq_fail_iff.1 (Attempt.eq_fail_of_fst h)
  exact (executes.wellFormed wf).inFamily_of_step (by rw [fault])

/-- `FX33` does all of its work or none. -/
theorem WellFormed.digits (wf : m.WellFormed) (here : m.Next i) (op : i.opcode = .bcd) :
    (m.step.1 = .ok i ∧ StoresDigits i m m.step.2) ∨
      ((∃ f, m.step.1 = .error f) ∧ m.step.2.memory = m.memory) := by
  cases refused : refusal? i m with
  | some f =>
    rw [step_of_refused here refused]
    exact .inr ⟨⟨f, rfl⟩, rfl⟩
  | none =>
    have inside := inside_of_not_refused (by rw [Instruction.span?, op]) (by decide) refused
    rw [step_of_not_refused wf here refused]
    refine .inl ⟨rfl, inside, (i.written m.past).2, toNat_written_of_bcd wf.past op, ?_⟩
    have start : (i.written m.past).1 = m.index.toNat := by
      simp only [Instruction.written, op]
      rfl
    rw [← start]
    exact toList_memory_execute wf.past refused

/-- **A machine whose modulus is whole is dependable.** -/
theorem WellFormed.dependable (wf : m.WellFormed) : m.Dependable where
  step _ := wf.inFamily_of_step
  run _ _ := wf.inFamily_of_run
  digits _ := wf.digits

omit [RandomSource σ] in
theorem WellFormed.withKeys (wf : m.WellFormed) (keys : Finset Key) :
    (m.withKeys keys).WellFormed :=
  ⟨wf.delay, wf.sound, wf.modulus⟩

/-- A frame faults for its keys, for its batch or for an instruction. -/
theorem WellFormed.inFamily_of_frame (wf : m.WellFormed) {pace : Config} {inputs : FrameInputs}
    {k : Nat} (short : inputs.ShortKeys) (sized : ∀ g, Console.budget inputs pace ≠ .error g)
    (h : (Console.runFrame inputs ⟨m, pace, k⟩).1 = .error f) : f.InFamily := by
  obtain ⟨m', stops, -⟩ := Console.runFrame_eq_fail_iff.1 (Attempt.eq_fail_of_fst h)
  cases stops with
  | key bad => exact bad.inFamily short
  | budget keyed bad => exact absurd bad (sized f)
  | instruction keyed budget left executes fault count =>
    have reached := executes.wellFormed (wf.withKeys _)
    exact reached.inFamily_of_step (congrArg Prod.fst fault)

/-- With a real modulus two digits are stored, and the third faults. -/
theorem step_of_real_modulus (here : m.Next i) (op : i.opcode = .bcd)
    (inside : 0 ≤ m.index ∧ m.index + 3 ≤ 4096) (real : m.config.onesModulus.whole? = none) :
    m.step = .fail .realDigit (m.past.write (leadingDigits (m.reg i.x))) := by
  have span : Span.outside? m.past.index 3 = none := Span.outside?_eq_none_iff.2 (.inr inside)
  have real : m.past.config.onesModulus.whole? = none := real
  rw [step_of_next here]
  simp only [execute, op, storeDigits, withSpan_of_inside span, real, Attempt.andThen_fail,
    reg_past]

end Machine

/-! ### Configurations -/

namespace Config

open Machine

/-- What a host can depend on with machines and consoles on a configuration,
whatever has been done to them. -/
structure Dependable (c : Config) : Prop where
  machine : ∀ {σ : Type} [RandomSource σ] (random : σ) (history : List Call),
    ((powerOn c random).afterCalls history).Dependable
  frame : ∀ {σ : Type} [RandomSource σ] (random : σ) (history : List Call)
    (inputs : FrameInputs) (k : Nat) (f : Fault), inputs.ShortKeys →
    (Console.runFrame inputs ⟨(powerOn c random).afterCalls history, c, k⟩).1 = .error f →
      f.InFamily

/-- The modulus is a whole number. -/
def WholeModulus (c : Config) : Prop := c.onesModulus = .ten ∨ c.onesModulus = .hundred

instance (c : Config) : Decidable c.WholeModulus := inferInstanceAs (Decidable (_ ∨ _))

/-- By default a frame runs a whole number of instructions. -/
def WholeBatch (c : Config) : Prop := ∃ b : Int, c.instructionsPerFrame = .ok (.int b)

variable {c : Config} {σ : Type} [RandomSource σ]

theorem WholeModulus.wellFormed (whole : c.WholeModulus) (random : σ) (history : List Call) :
    ((powerOn c random).afterCalls history).WellFormed :=
  ((bounded_powerOn whole random).afterCalls history).toWellFormed

theorem not_whole?_iff : c.onesModulus.whole? = none ↔ ¬c.WholeModulus := by
  unfold WholeModulus
  cases c.onesModulus <;> simp [OnesModulus.whole?]

theorem WholeBatch.sized (whole : c.WholeBatch) (inputs : FrameInputs) (g : Fault) :
    Console.budget inputs c ≠ .error g := by
  obtain ⟨b, size⟩ := whole
  have sized : ∃ b, inputs.Budget c b := by
    cases given : inputs.instructions with
    | some n => exact ⟨n, .inl given⟩
    | none => exact ⟨b, .inr ⟨given, size⟩⟩
  obtain ⟨b, sized⟩ := sized
  rw [FrameInputs.budget_eq_ok_iff.2 sized]
  simp

/-- Otherwise there is no running a frame by default. -/
theorem budget_of_not_whole (real : ¬c.WholeBatch) :
    ∃ g, Console.budget {} c = .error g ∧ ¬g.InFamily := by
  unfold Console.budget
  cases size : c.instructionsPerFrame with
  | error e => exact ⟨_, rfl, by decide⟩
  | ok n =>
    cases n with
    | bool b => exact absurd size (c.instructionsPerFrame_ne_bool b)
    | int b => exact absurd ⟨b, size⟩ real
    | real x => exact ⟨_, rfl, by decide⟩

/-- A machine just switched on with `F033` for its program. -/
def storingDigits (c : Config) (random : σ) : Machine σ :=
  { powerOn c random with memory := Memory.overlay 512 [0xF0, 0x33] Memory.initial }

theorem afterCalls_load_digits (c : Config) (random : σ) :
    (powerOn c random).afterCalls [.event (.load [0xF0, 0x33])] = storingDigits c random := by
  have loaded := (load_eq_done_iff [0xF0, 0x33] (powerOn c random) _).2 ⟨by decide, rfl⟩
  show ((powerOn c random).load [0xF0, 0x33]).2 = _
  rw [loaded]
  rfl

omit [RandomSource σ] in
theorem next_storingDigits (c : Config) (random : σ) :
    (storingDigits c random).Next ⟨0xF033, .bcd⟩ := by
  have start : (storingDigits c random).pc = 0x200 := rfl
  refine ⟨⟨by rw [start]; decide, ?_⟩, by decide⟩
  rw [start]
  show (0xF033 : UInt16).toNat =
    256 * (Memory.byteAt 0x200 (Memory.overlay 512 [0xF0, 0x33] Memory.initial)).toNat
      + (Memory.byteAt 0x201 (Memory.overlay 512 [0xF0, 0x33] Memory.initial)).toNat
  decide +kernel

/-- There it faults between two digits and the third if the modulus is real. -/
theorem step_storingDigits (real : ¬c.WholeModulus) (random : σ) :
    (storingDigits c random).step.1 = .error .realDigit := by
  have inside : 0 ≤ (storingDigits c random).index ∧ (storingDigits c random).index + 3 ≤ 4096 := by
    have start : (storingDigits c random).index = 0 := rfl
    omega
  rw [step_of_real_modulus (next_storingDigits c random) rfl inside (not_whole?_iff.2 real)]

/-- A frame that is no more than its batch faults if that has no size. -/
theorem frame_of_not_whole (real : ¬c.WholeBatch) (m : Machine σ) (k : Nat) :
    ∃ g, (Console.runFrame {} ⟨m, c, k⟩).1 = .error g ∧ ¬g.InFamily := by
  obtain ⟨g, bad, outside⟩ := budget_of_not_whole real
  have stops : FrameInputs.Stops {} c m g (m.withKeys _) := .budget ⟨[], [], rfl, rfl, rfl⟩ bad
  have faults := Console.runFrame_eq_fail_iff (c := ⟨m, c, k⟩).2 ⟨_, stops, rfl⟩
  exact ⟨g, congrArg Prod.fst faults, outside⟩

/-- A frame that presses a key of a number too long to be shown faults for that. -/
theorem frame_of_long_key {i : Int} (long : ¬Numeral.Short i) (m : Machine σ) (k : Nat) :
    (Console.runFrame { press := [.int i] } ⟨m, c, k⟩).1 = .error .numeralTooLong := by
  have bad : Key.ofJson (.int i) = .error .numeralTooLong := Key.ofInt_of_long long
  have first : [Json.int i] = [] ++ .int i :: [] := rfl
  have none : Key.Names [] [] := rfl
  have stops : FrameInputs.Stops { press := [.int i] } c m .numeralTooLong (m.withKeys _) :=
    .key (.press none first none bad)
  exact congrArg Prod.fst (Console.runFrame_eq_fail_iff (c := ⟨m, c, k⟩).2 ⟨_, stops, rfl⟩)

/-- **The dependable configurations are those whose numbers are whole.** -/
theorem dependable_iff : c.Dependable ↔ c.WholeModulus ∧ c.WholeBatch := by
  constructor
  · intro dependable
    constructor
    · by_contra real
      have machine := dependable.machine (Supply.constant 0) [.event (.load [0xF0, 0x33])]
      rw [afterCalls_load_digits] at machine
      have family := machine.step _ (step_storingDigits real (Supply.constant 0))
      exact absurd family (by decide)
    · by_contra real
      obtain ⟨g, faults, outside⟩ := frame_of_not_whole real (powerOn c (Supply.constant 0)) 0
      have family :=
        dependable.frame (Supply.constant 0) [] {} 0 g FrameInputs.shortKeys_default faults
      exact outside family
  · rintro ⟨modulus, batch⟩
    constructor
    · intro σ _ random history
      exact (modulus.wellFormed random history).dependable
    · intro σ _ random history inputs k f short
      exact (modulus.wellFormed random history).inFamily_of_frame short (batch.sized inputs)

end Config

/-! ### Settings that are accepted -/

namespace Config

open Machine

variable {c : Config} {fields : List (Text × Json)}

/-- Rates that are accepted are above zero. -/
theorem isNonpositive_of_ofFields (accepted : ofFields fields = .ok c) :
    c.instructionsPerSecond.isNonpositive = false ∧ c.timerHz.isNonpositive = false := by
  simp only [ofFields] at accepted
  split at accepted
  · cases accepted
  · obtain ⟨ips, hz, -⟩ := Settings.check_eq_ok_iff.1 accepted
    exact ⟨(Settings.checkRate_eq_ok_iff.1 ips).2, (Settings.checkRate_eq_ok_iff.1 hz).2⟩

/-- For whole rates the batch is the quotient, rounded down, or one. -/
theorem instructionsPerFrame_floor {m n : Int} (ips : c.instructionsPerSecond = .int m)
    (hz : c.timerHz = .int n) (positive : 0 < n) :
    c.instructionsPerFrame = .ok (.int (max 1 ⌊(m : ℚ) / n⌋)) := by
  obtain ⟨d, rfl⟩ := Int.eq_ofNat_of_zero_le (Int.le_of_lt positive)
  have floor : ⌊(m : ℚ) / ((d : Int) : ℚ)⌋ = m / d := by
    rw [Int.cast_natCast]
    exact Rat.floor_intCast_div_natCast m d
  rw [instructionsPerFrame_int ips hz, floor, Int.fdiv_eq_ediv_of_nonneg m (Int.le_of_lt positive)]

/-- **Settings that are accepted suffice where the numbers are whole.** With a whole
modulus the machines are dependable, whatever the rates are; if the size of the
batch is whole too, so are the frames. Whole rates, which are at least one, give a
whole size. -/
theorem whole_settings_suffice (accepted : ofFields fields = .ok c) :
    (c.WholeModulus → ∀ {σ : Type} [RandomSource σ] (random : σ) (history : List Call),
      ((powerOn c random).afterCalls history).Dependable) ∧
    (c.WholeModulus → c.WholeBatch → c.Dependable) ∧
    ∀ m n : Int, c.instructionsPerSecond = .int m → c.timerHz = .int n →
      1 ≤ m ∧ 1 ≤ n ∧ c.instructionsPerFrame = .ok (.int (max 1 ⌊(m : ℚ) / n⌋)) ∧ c.WholeBatch := by
  refine ⟨fun whole σ _ random history => ?_, fun modulus batch => ?_, fun m n ips hz => ?_⟩
  · exact (whole.wellFormed random history).dependable
  · exact dependable_iff.2 ⟨modulus, batch⟩
  · obtain ⟨positive, positive'⟩ := isNonpositive_of_ofFields accepted
    rw [ips] at positive
    rw [hz] at positive'
    have positive : ¬m ≤ 0 := of_decide_eq_false positive
    have positive' : ¬n ≤ 0 := of_decide_eq_false positive'
    have size := instructionsPerFrame_floor ips hz (by omega)
    exact ⟨by omega, by omega, size, _, size⟩

/-- With a modulus of ten and a timer that is faster than the instructions, every
frame runs one of them. -/
theorem slow_settings_suffice : ∃ c,
    ofFields [(fieldNames.instructionsPerSecond, .int 10), (fieldNames.onesModulus, .int 10)] =
      .ok c ∧ c.WholeModulus ∧ c.WholeBatch ∧ c.instructionsPerFrame = .ok (.int 1) ∧
      c.Dependable ∧ ((powerOn c (Supply.constant 0xAB)).afterCalls [.run 3]).Dependable := by
  have accepted : ofFields [(fieldNames.instructionsPerSecond, .int 10),
      (fieldNames.onesModulus, .int 10)] =
      .ok { standard with instructionsPerSecond := .int 10, onesModulus := .ten } := rfl
  obtain ⟨machines, frames, rates⟩ := whole_settings_suffice accepted
  have modulus : Config.WholeModulus
      { standard with instructionsPerSecond := .int 10, onesModulus := .ten } := .inl rfl
  obtain ⟨-, -, size, batch⟩ := rates 10 60 rfl rfl
  have none : ⌊((10 : Int) : ℚ) / (60 : Int)⌋ = 0 := by norm_num
  rw [none] at size
  exact ⟨_, accepted, modulus, batch, size, frames modulus batch, machines modulus _ _⟩

/-- Two instructions before the digits of `123` are stored at `0x300`. -/
def storing123 : List Call :=
  [.event (.load [0x60, 0x7B, 0xA3, 0x00, 0xF0, 0x33]), .run 2]

/-- A modulus and a rate that are real are accepted. With the modulus `10.0` two of
three digits are stored before a fault outside the family, and with `700.0`
instructions per second no frame can be run by default. -/
theorem accepted_reals_are_not_dependable :
    (∃ c, ofFields [(fieldNames.onesModulus, .real (.ofInt 10))] = .ok c ∧
      let m := (powerOn c (Supply.constant 0xAB)).afterCalls storing123
      m.Next ⟨0xF033, .bcd⟩ ∧ m.step.1 = .error .realDigit ∧
        Memory.slice 0x300 3 m.memory = [0, 0, 0] ∧
        Memory.slice 0x300 3 m.step.2.memory = [1, 2, 0]) ∧
    (∃ c, ofFields [(fieldNames.instructionsPerSecond, .real (.ofInt 700))] = .ok c ∧
      (Console.runFrame {} (.ofMachine (powerOn c (Supply.constant 0xAB)) none)).1 =
        .error .realBudget) ∧
    ¬Fault.realDigit.InFamily ∧ ¬Fault.realBudget.InFamily ∧
    ¬∀ fields c, ofFields fields = .ok c → c.Dependable := by
  have tenths : ofFields [(fieldNames.onesModulus, .real (.ofInt 10))] =
      .ok { standard with onesModulus := .realTen } := rfl
  have positive : (Number.real (.ofInt 700)).isNonpositive = false := by decide +kernel
  have rates : ofFields [(fieldNames.instructionsPerSecond, .real (.ofInt 700))] =
      .ok { standard with instructionsPerSecond := .real (.ofInt 700) } :=
    Settings.check_eq_ok_iff.2
      ⟨Settings.checkRate_eq_ok_iff.2 ⟨rfl, positive⟩, rfl, rfl, rfl, rfl⟩
  refine ⟨⟨_, tenths, ?_, by decide +kernel, by decide +kernel, by decide +kernel⟩,
    ⟨_, rates, by decide +kernel⟩, by decide, by decide, fun all => ?_⟩
  · exact ⟨fetch?_eq_some_iff.1 (by decide +kernel), by decide⟩
  · exact absurd (dependable_iff.1 (all _ _ tenths)).1 (by decide)

end Config

end ChipEight
