/-
# Executions

Instructions executed one after the other without a fault, as a relation
between the machine before and the machine after. Steps and runs are told by it
in full: a run is done if as many instructions can be executed, and otherwise it
stops at the first that faults, with those before it executed and counted.

Key definitions: `Machine.Executes`.
Key theorems: `Machine.steps_eq_done_iff`, `Machine.steps_eq_fail_iff`,
`Machine.run_eq_done_iff`, `Machine.run_eq_fail_iff`, `Machine.Executes.count`.
-/
import ChipEight.Proofs.StepEffects

namespace ChipEight

namespace Machine

variable {σ : Type} [RandomSource σ]

/-- The instructions are executed one after the other, without a fault. -/
inductive Executes : List Instruction → Machine σ → Machine σ → Prop
  | nil {m : Machine σ} : Executes [] m m
  | cons {i : Instruction} {is : List Instruction} {m m₁ m' : Machine σ}
      (first : m.step = .done i m₁) (rest : Executes is m₁ m') : Executes (i :: is) m m'

variable {m m' : Machine σ} {f : Fault}

/-- Every instruction is counted. -/
theorem Executes.count {is : List Instruction} (h : Executes is m m') :
    m'.instructionCount = m.instructionCount + is.length := by
  induction h with
  | nil => rfl
  | cons first rest ih =>
    rw [ih, count_of_step_done first, List.length_cons]
    omega

theorem steps_eq_done_iff : ∀ {k : Nat} {m : Machine σ},
    m.steps k = .done () m' ↔ ∃ is, is.length = k ∧ Executes is m m'
  | 0, m => by
    constructor
    · intro h
      obtain rfl : m = m' := congrArg Prod.snd h
      exact ⟨[], rfl, .nil⟩
    · rintro ⟨is, none, h⟩
      obtain rfl := List.eq_nil_of_length_eq_zero none
      cases h
      rfl
  | k + 1, m => by
    rw [steps, Attempt.andThen_eq_done_iff]
    constructor
    · rintro ⟨i, m₁, first, rest⟩
      obtain ⟨is, length, rest⟩ := steps_eq_done_iff.1 rest
      exact ⟨i :: is, congrArg (· + 1) length, .cons first rest⟩
    · rintro ⟨_ | ⟨i, is⟩, length, h⟩
      · cases length
      · cases h with
        | cons first rest =>
          exact ⟨i, _, first, steps_eq_done_iff.2 ⟨is, Nat.succ.inj length, rest⟩⟩

theorem steps_eq_fail_iff : ∀ {k : Nat} {m : Machine σ},
    m.steps k = .fail f m' ↔
      ∃ is m₁, is.length < k ∧ Executes is m m₁ ∧ m₁.step = .fail f m'
  | 0, m => by
    constructor
    · intro h
      cases h
    · rintro ⟨is, m₁, none, -⟩
      omega
  | k + 1, m => by
    rw [steps, Attempt.andThen_eq_fail_iff]
    constructor
    · rintro (fault | ⟨i, m₁, first, rest⟩)
      · exact ⟨[], m, Nat.succ_pos k, .nil, fault⟩
      · obtain ⟨is, m₂, length, rest, fault⟩ := steps_eq_fail_iff.1 rest
        exact ⟨i :: is, m₂, Nat.succ_lt_succ length, .cons first rest, fault⟩
    · rintro ⟨_ | ⟨i, is⟩, m₂, length, h, fault⟩
      · cases h
        exact .inl fault
      · cases h with
        | cons first rest =>
          exact .inr ⟨i, _, first,
            steps_eq_fail_iff.2 ⟨is, m₂, Nat.lt_of_succ_lt_succ length, rest, fault⟩⟩

/-- A run that is done has executed as many instructions as it was to. -/
theorem run_eq_done_iff {count n : Int} :
    m.run count = .done n m' ↔
      n = max count 0 ∧ ∃ is, (is.length : Int) = max count 0 ∧ Executes is m m' := by
  rw [run, Attempt.andThen_eq_done_iff]
  constructor
  · rintro ⟨⟨⟩, m₁, done, e⟩
    obtain ⟨is, length, h⟩ := steps_eq_done_iff.1 done
    cases e
    exact ⟨rfl, is, by omega, h⟩
  · rintro ⟨rfl, is, length, h⟩
    exact ⟨(), m', steps_eq_done_iff.2 ⟨is, by omega, h⟩, rfl⟩

/-- A run that faults has executed fewer, and stops at the next. -/
theorem run_eq_fail_iff {count : Int} :
    m.run count = .fail f m' ↔
      ∃ is m₁, (is.length : Int) < count ∧ Executes is m m₁ ∧ m₁.step = .fail f m' := by
  rw [run, Attempt.andThen_eq_fail_iff]
  constructor
  · rintro (fault | ⟨-, m₁, -, e⟩)
    · obtain ⟨is, m₁, length, h, fault⟩ := steps_eq_fail_iff.1 fault
      exact ⟨is, m₁, by omega, h, fault⟩
    · cases e
  · rintro ⟨is, m₁, length, h, fault⟩
    exact .inl (steps_eq_fail_iff.2 ⟨is, m₁, by omega, h, fault⟩)

end Machine

end ChipEight
