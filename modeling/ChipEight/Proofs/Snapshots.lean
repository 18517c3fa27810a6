/-
# What a snapshot tells

A snapshot tells all of a machine that matters later: machines with equal
snapshots, the same modulus, and the same random bytes to come answer every
call alike and have equal snapshots after it. The packed display tells the
pixels, and nothing that a machine looks at is missing from the snapshot.

So a reset, which gives every machine the snapshot of a machine just switched
on, leaves nothing of its history but the random source where it is.

Key definitions: `Machine.outcomes`, `Machine.SameDraws`, `Machine.AgreeFor`,
`Machine.Fresh`.
Key theorems: `Machine.agreeAt_of_snapshot`, `Machine.outcomes_of_agree`,
`Machine.snapshot_tells_the_future`, `Machine.reset_erases_history`.
-/
import ChipEight.Proofs.Lockstep
import ChipEight.Proofs.Packing
import ChipEight.Random.Supply

namespace ChipEight

namespace Machine

section

variable {σ : Type} [RandomSource σ]

/-- What comes of some calls: the answer or the fault of each, and the snapshot
after it. -/
def outcomes : List Call → Machine σ → List (Except Fault Answer × Snapshot)
  | [], _ => []
  | c :: cs, m => ((c.perform m).1, (c.perform m).2.snapshot) :: outcomes cs (c.perform m).2

end

variable {σ τ : Type} [RandomSource σ] [RandomSource τ] {m : Machine σ} {n : Machine τ}

/-! ### Snapshots and agreement -/

/-- The cells of a machine make up its snapshot; source and configuration have
no part in it. -/
theorem snapshot_of_agree
    (h : ∀ c, c ≠ .delay → c ≠ .sound → c ≠ .random → c ≠ .config → AgreeAt m n c) :
    n.snapshot = { m.snapshot with timers := n.timers } := by
  have pc : n.pc = m.pc := h .pc (by simp) (by simp) (by simp) (by simp)
  have index : n.index = m.index := h .index (by simp) (by simp) (by simp) (by simp)
  have sp : n.sp = m.sp := h .sp (by simp) (by simp) (by simp) (by simp)
  have count : n.instructionCount = m.instructionCount :=
    h .count (by simp) (by simp) (by simp) (by simp)
  have keypad : n.keypad = m.keypad := h .keypad (by simp) (by simp) (by simp) (by simp)
  have display : n.display = m.display := h .display (by simp) (by simp) (by simp) (by simp)
  have registers : n.registers = m.registers := Vector.ext fun r hr =>
    h (.register ⟨r, hr⟩) (by simp) (by simp) (by simp) (by simp)
  have stack : n.stack = m.stack := Vector.ext fun k hk =>
    h (.slot ⟨k, hk⟩) (by simp) (by simp) (by simp) (by simp)
  have memory : n.memory = m.memory := Vector.ext fun a ha =>
    h (.memory ⟨a, ha⟩) (by simp) (by simp) (by simp) (by simp)
  simp only [snapshot, cpu, pc, index, sp, count, keypad, display, registers, stack, memory]

/-- Machines with equal snapshots agree in every cell that a snapshot is of. -/
theorem agreeAt_of_snapshot (same : n.snapshot = m.snapshot) {c : Cell} (random : c ≠ .random)
    (config : c ≠ .config) : AgreeAt m n c := by
  have cpu : n.cpu = m.cpu := congrArg Snapshot.cpu same
  have timers : n.timers = m.timers := congrArg Snapshot.timers same
  cases c with
  | memory a => exact congrArg (fun s : Snapshot => s.memory[a]) same
  | register r => exact congrArg (fun s : CpuState => s.registers[r]) cpu
  | slot k => exact congrArg (fun s : CpuState => s.stack.get k) cpu
  | sp => exact congrArg CpuState.sp cpu
  | pc => exact congrArg CpuState.pc cpu
  | index => exact congrArg CpuState.index cpu
  | count => exact congrArg CpuState.instructionCount cpu
  | display => exact Grid.packed_injective (congrArg Snapshot.display same)
  | keypad => exact congrArg Snapshot.keypad same
  | delay => exact congrArg Timers.delay timers
  | sound => exact congrArg Timers.sound timers
  | random => exact absurd rfl random
  | config => exact absurd rfl config

/-! ### Machines that do the same from now on -/

/-- The second machine has the bytes that the first will draw for some
instructions. -/
def SameDraws (is : List Instruction) (m : Machine σ) (n : Machine τ) : Prop :=
  ∀ k < Instruction.draws is, RandomSource.byte n.random k = RandomSource.byte m.random k

/-- The two machines agree in all that matters to the instructions ahead. -/
structure AgreeFor (ahead : List Instruction) (m : Machine σ) (n : Machine τ) : Prop where
  cells : ∀ c, c ≠ .random → AgreeAt m n c
  bytes : SameDraws ahead m n

theorem executedIn_of_rnd {i : Instruction} (here : m.Next i) (op : i.opcode = .rnd) :
    m.executedIn 1 = [i] := by
  have done : execute i m.past = .done () (m.past.randomize i.x i.nn) := by
    simp only [execute, op]
  have h : m.step = .done i (m.past.randomize i.x i.nn).counted := by
    rw [step_of_next here, done, Attempt.andThen_done]
  exact executedIn_of_done h 0

theorem executedIn_one_congr (same : n.step.1 = m.step.1) : n.executedIn 1 = m.executedIn 1 := by
  rcases em : m.step with ⟨f | i, m'⟩
  · have en : n.step = .fail f n.step.2 := Prod.ext (by rw [same, em]) rfl
    rw [executedIn_of_fail em, executedIn_of_fail en]
  · have en : n.step = .done i n.step.2 := Prod.ext (by rw [same, em]) rfl
    rw [executedIn_of_done em, executedIn_of_done en]
    rfl

theorem AgreeFor.step {ahead : List Instruction} (h : AgreeFor (m.executedIn 1 ++ ahead) m n) :
    n.step.1 = m.step.1 ∧ AgreeFor ahead m.step.2 n.step.2 := by
  have alike : EndAlike m n m.step n.step := by
    refine step_of_agree (fun c read => h.cells c ?_) (fun i here op => ?_)
    · rintro rfl
      exact not_stepReads (by simp) (by simp) (fun _ _ => Instruction.not_reads_random) read
    · refine h.bytes 0 ?_
      rw [executedIn_of_rnd here op, Instruction.draws_append, Instruction.draws_of_rnd op]
      omega
  refine ⟨alike.1, fun c hc => alike.2 c (h.cells c hc), fun k hk => ?_⟩
  -- what is left of either source is what comes after the bytes of this step
  rw [random_step, random_step, executedIn_one_congr alike.1, RandomSource.byte_after,
    RandomSource.byte_after]
  refine h.bytes _ ?_
  rw [Instruction.draws_append]
  omega

theorem AgreeFor.of_endAlike {α : Type} {ahead : List Instruction} {x : Attempt (Machine σ) α}
    {y : Attempt (Machine τ) α} (h : AgreeFor ahead m n) (alike : EndAlike m n x y)
    (hx : x.2.random = m.random) (hy : y.2.random = n.random) :
    y.1 = x.1 ∧ AgreeFor ahead x.2 y.2 := by
  refine ⟨alike.1, fun c hc => alike.2 c (h.cells c hc), ?_⟩
  rw [SameDraws, hx, hy]
  exact h.bytes

theorem random_perform_of_other {e : Event} (ne : e ≠ .step) (m : Machine σ) :
    (e.perform m).2.random = m.random := by
  have none : e.executed m = [] := by
    cases e with
    | step => exact absurd rfl ne
    | _ => rfl
  rw [random_perform, none]
  rfl

theorem AgreeFor.snapshot {ahead : List Instruction} (h : AgreeFor ahead m n) :
    n.snapshot = m.snapshot := by
  have timers : n.timers = m.timers := by
    have delay : n.timers.delay = m.timers.delay := h.cells .delay (by simp)
    have sound : n.timers.sound = m.timers.sound := h.cells .sound (by simp)
    rcases em : m.timers with ⟨d, s⟩
    rcases en : n.timers with ⟨d', s'⟩
    rw [em, en] at delay sound
    rw [show d' = d from delay, show s' = s from sound]
  rw [snapshot_of_agree fun c _ _ hc _ => h.cells c hc, timers]
  rfl

theorem lockstep_agreeFor : Lockstep id (AgreeFor (σ := σ) (τ := τ)) where
  step h := h.step
  event e ne h := h.of_endAlike (perform_of_agree ne (h.cells .keypad (by simp)))
    (random_perform_of_other ne _) (random_perform_of_other ne _)
  keys f h := h.of_endAlike (onKeypad_of_agree (h.cells .keypad (by simp)) f) rfl rfl
  frame count h := by
    have sound : _ = _ := h.cells .sound (by simp)
    rw [h.snapshot, soundActive, soundActive, Timers.soundActive, Timers.soundActive, sound]

/-- The same comes of the same calls. -/
theorem outcomes_of_agree : ∀ (calls : List Call) {m : Machine σ} {n : Machine τ},
    AgreeFor (m.executed calls) m n → n.outcomes calls = m.outcomes calls
  | [], _, _, _ => rfl
  | c :: calls, m, n, h => by
    obtain ⟨-, answer, after⟩ := lockstep_agreeFor.call c h
    have all (x : Except Fault Answer) : x.map id = x := congrFun Except.map_id x
    rw [all, all] at answer
    rw [outcomes, outcomes, answer, after.snapshot, outcomes_of_agree calls after]

/-- **A snapshot is all there is to know.** Machines with equal snapshots, the
same modulus and the same random bytes to come, whatever has led to them, have
the same pixels, answer all calls alike, and have equal snapshots after each. -/
theorem snapshot_tells_the_future (modulus : n.config.onesModulus = m.config.onesModulus)
    (bytes : RandomSource.SameBytes m.random n.random) (same : n.snapshot = m.snapshot) :
    (∀ calls : List Call, n.outcomes calls = m.outcomes calls) ∧
      n.display = m.display ∧
      ∀ g g' : Grid 64 32, g.packed = g'.packed → g = g' := by
  refine ⟨fun calls => outcomes_of_agree calls ⟨fun c hc => ?_, fun k _ => bytes k⟩,
    agreeAt_of_snapshot (c := .display) same (by simp) (by simp),
    fun g g' packed => Grid.packed_injective packed⟩
  by_cases config : c = .config
  · subst config
    exact modulus
  · exact agreeAt_of_snapshot same hc config

/-- A machine about to draw a random byte, again and again, where one number is
drawn for ever. -/
def drawing (v : Int) : Machine Supply :=
  { powerOn Config.standard (.constant v) with
    memory := Memory.overlay 0x200 [0xC0, 0xFF, 0x12, 0x00] (.replicate 4096 0) }

theorem sameBytes_drawing :
    RandomSource.SameBytes (drawing 0xAB).random (drawing 0x1AB).random := by
  intro k
  have source (v : Int) : RandomSource.byte (drawing v).random k = UInt8.ofInt v :=
    congrArg UInt8.ofInt (Supply.stream_constant v k)
  rw [source, source]
  rfl

/-- Numbers that differ above their low eight bits make no difference. -/
theorem drawing_outcomes :
    (drawing 0x1AB).config.onesModulus = (drawing 0xAB).config.onesModulus ∧
      RandomSource.SameBytes (drawing 0xAB).random (drawing 0x1AB).random ∧
      (drawing 0x1AB).snapshot = (drawing 0xAB).snapshot ∧
      (drawing 0x1AB).outcomes [.event .step, .event .reset, .run 3] =
        (drawing 0xAB).outcomes [.event .step, .event .reset, .run 3] := by
  have modulus : (drawing 0x1AB).config.onesModulus = (drawing 0xAB).config.onesModulus := by
    simp only [drawing, powerOn]
  have same : (drawing 0x1AB).snapshot = (drawing 0xAB).snapshot := by
    simp only [drawing, powerOn, snapshot, cpu]
  exact ⟨modulus, sameBytes_drawing, same,
    (snapshot_tells_the_future modulus sameBytes_drawing same).1 _⟩

/-! ### Resets -/

/-- A machine with the font in memory, the program counter where programs start,
and nothing in any other part. -/
structure Fresh (m : Machine σ) : Prop where
  font : ∀ a : Fin 4096, a.val < 80 → Font.bytes[a.val]? = some (m.memory.get a)
  zeros : ∀ a : Fin 4096, 80 ≤ a.val → m.memory.get a = 0
  registers : ∀ r, m.reg r = 0
  slots : ∀ k, m.stack.get k = 0
  sp : m.sp = 0
  pc : m.pc = 0x200
  index : m.index = 0
  pixels : ∀ x y, m.display.pixel x y = false
  keys : ∀ k, m.keypad.isPressed k = false
  timers : m.timers.delay = 0 ∧ m.timers.sound = 0
  count : m.instructionCount = 0

omit [RandomSource σ] in
theorem fresh_powerOn (config : Config) (random : σ) : (powerOn config random).Fresh := by
  have byte (a : Fin 4096) :
      (powerOn config random).memory.get a = (Font.bytes[a.val]?).getD 0 := by
    show (Memory.overlay 0 Font.bytes (.replicate 4096 0))[a.val] = _
    rw [Memory.getElem_overlay, if_pos (Nat.zero_le _), Vector.getElem_replicate, Nat.sub_zero]
  have length : Font.bytes.length = 80 := Font.length_bytes
  exact {
    font := fun a ha => by rw [byte, List.getElem?_eq_getElem (by omega), Option.getD_some]
    zeros := fun a ha => by rw [byte, List.getElem?_eq_none (by omega), Option.getD_none]
    registers := fun r => Vector.getElem_replicate r.isLt
    slots := fun k => Vector.getElem_replicate k.isLt
    sp := rfl
    pc := rfl
    index := rfl
    pixels := fun x y => Grid.pixel_blank x y
    keys := Keypad.isPressed_released
    timers := ⟨rfl, rfl⟩
    count := rfl }

/-- After a reset, machines agree in all that matters. -/
theorem agreeFor_reset {ahead : List Instruction}
    (modulus : n.config.onesModulus = m.config.onesModulus) (bytes : SameDraws ahead m n) :
    AgreeFor ahead m.reset n.reset := by
  refine ⟨fun c hc => AgreeAt.reset fun open? => ?_, ?_⟩
  · obtain rfl := open?.resolve_left hc
    exact modulus
  · rw [SameDraws, random_reset, random_reset]
    exact bytes

/-- **A reset leaves nothing of the history.** It makes every machine like one
just switched on and lets the source go on from where it is; and whatever has
happened to either of two machines of one modulus, once reset they answer all
calls alike, with equal snapshots, if the bytes that are drawn are the same. -/
theorem reset_erases_history (m : Machine σ) (n : Machine τ) :
    (m.reset.Fresh ∧ m.reset.random = m.random ∧
      ∀ (config : Config) (random : τ), m.reset.snapshot = (powerOn config random).snapshot) ∧
    (n.config.onesModulus = m.config.onesModulus → ∀ history history' later : List Call,
      SameDraws ((m.afterCalls history).executed (.event .reset :: later))
        (m.afterCalls history) (n.afterCalls history') →
      (n.afterCalls history').outcomes (.event .reset :: later) =
        (m.afterCalls history).outcomes (.event .reset :: later)) := by
  refine ⟨⟨?_, random_reset m, snapshot_reset m⟩, ?_⟩
  · rw [reset_eq_powerOn]
    exact fresh_powerOn m.config m.random
  intro modulus history history' later bytes
  have same : AgreeFor ((m.afterCalls history).reset.executed later)
      (m.afterCalls history).reset (n.afterCalls history').reset := by
    refine agreeFor_reset ?_ bytes
    rw [config_afterCalls, config_afterCalls, modulus]
  have first : (n.afterCalls history').reset.snapshot = (m.afterCalls history).reset.snapshot :=
    same.snapshot
  simp only [outcomes, Call.perform, Event.perform, first, outcomes_of_agree later same]

/-- One machine has drawn bytes and let its timers tick, the other was loaded
with another program and has faulted. -/
theorem drawing_after_resets :
    (drawing 0x1AB).config.onesModulus = (drawing 0xAB).config.onesModulus ∧
      SameDraws (((drawing 0xAB).afterCalls [.run 3, .event (.setDelay 9), .event .tick]).executed
          [.event .reset, .event (.load [0xC1, 0x0F]), .event .step])
        ((drawing 0xAB).afterCalls [.run 3, .event (.setDelay 9), .event .tick])
        ((drawing 0x1AB).afterCalls [.event (.load [0x00, 0xEE]), .event .step]) ∧
      ((drawing 0x1AB).afterCalls [.event (.load [0x00, 0xEE]), .event .step]).outcomes
          [.event .reset, .event (.load [0xC1, 0x0F]), .event .step] =
        ((drawing 0xAB).afterCalls [.run 3, .event (.setDelay 9), .event .tick]).outcomes
          [.event .reset, .event (.load [0xC1, 0x0F]), .event .step] := by
  have modulus : (drawing 0x1AB).config.onesModulus = (drawing 0xAB).config.onesModulus := by
    simp only [drawing, powerOn]
  have bytes : SameDraws
      (((drawing 0xAB).afterCalls [.run 3, .event (.setDelay 9), .event .tick]).executed
        [.event .reset, .event (.load [0xC1, 0x0F]), .event .step])
      ((drawing 0xAB).afterCalls [.run 3, .event (.setDelay 9), .event .tick])
      ((drawing 0x1AB).afterCalls [.event (.load [0x00, 0xEE]), .event .step]) := by
    unfold SameDraws
    decide +kernel
  exact ⟨modulus, bytes,
    (reset_erases_history (drawing 0xAB) (drawing 0x1AB)).2 modulus _ _ _ bytes⟩

end Machine

end ChipEight
