/-
# Events that may come in either order

Between two instructions the host lets the timers tick and sets keys. Most
instructions look at neither and change neither, and then it is all the same
whether the host comes before them or after: what each is answered, a fault
among it, and the machine that they leave.

What a step does not look at makes no difference to it, and what it does not
change is there afterwards. So a step on a machine whose timers or keys were set
is the step without that, with the timers or the keys set then.

Key definitions: `Event.CommuteAt`, `Opcode.timing`.
Key theorems: `Machine.step_of_apart`, `Machine.step_withTimers`,
`Machine.step_withKeypad`, `Machine.host_events_commute_with_steps`.
-/
import ChipEight.Proofs.Snapshots

namespace ChipEight

/-- Two events may come in either order: each is answered the same, and they
lead to the same machine. -/
def Event.CommuteAt {σ : Type} [RandomSource σ] (e f : Event) (m : Machine σ) : Prop :=
  (e.perform (f.perform m).2).1 = (e.perform m).1 ∧
    (f.perform (e.perform m).2).1 = (f.perform m).1 ∧ m.after [e, f] = m.after [f, e]

/-- The opcodes that look at a timer or set one. -/
def Opcode.timing : List Opcode := [.ldVxDt, .ldDtVx, .ldStVx]

namespace Instruction

variable {σ : Type} {i : Instruction} {m : Machine σ}

/-- An instruction of another opcode neither looks at a timer nor changes one. -/
theorem not_touches_timer {c : Cell} (other : i.opcode ∉ Opcode.timing)
    (timer : c = .delay ∨ c = .sound) : ¬i.Reads m c ∧ ¬i.Writes m c := by
  simp only [Opcode.timing, List.mem_cons, List.not_mem_nil, or_false, not_or] at other
  rcases timer with rfl | rfl
  · rw [reads_delay_iff, writes_delay_iff]
    exact ⟨other.1, other.2.1⟩
  · rw [writes_sound_iff]
    exact ⟨not_reads_sound, other.2.2⟩

end Instruction

namespace Machine

variable {σ : Type} [RandomSource σ] {m n : Machine σ}

/-! ### Steps of machines that differ in timers or keys -/

/-- **Where two machines differ in nothing that a step looks at** they make the
same step, and the differences stay if it changes none of them. -/
theorem step_of_apart {D : Cell → Prop}
    (outer : ∀ c, D c → c = .keypad ∨ c = .delay ∨ c = .sound)
    (apart : ∀ c, ¬D c → m.SameAt n c) (unread : ∀ i c, m.Next i → D c → ¬i.Reads m c)
    (unwritten : ∀ i c, n.Next i → D c → ¬i.Writes n.past c) :
    n.step.1 = m.step.1 ∧ (∀ c, ¬D c → m.step.2.SameAt n.step.2 c) ∧
      ∀ c, D c → n.SameAt n.step.2 c := by
  have inner {c : Cell} (h : D c) : c ≠ .pc ∧ c ≠ .count ∧ c ≠ .random ∧ ∀ a, c ≠ .memory a := by
    rcases outer c h with rfl | rfl | rfl <;> simp
  have agree (c : Cell) (h : ¬D c) : AgreeAt m n c :=
    (AgreeAt.refl m c).of_sameAt (.refl m c) (apart c h)
  have random : n.random = m.random := apart .random fun h => (inner h).2.2.1 rfl
  have alike : EndAlike m n m.step n.step := by
    refine step_of_agree (fun c read => agree c fun inside => ?_) fun _ _ _ => by rw [random]
    exact not_stepReads (inner inside).1 (inner inside).2.2.2
      (fun i here => unread i c here inside) read
  refine ⟨alike.1, fun c h => ?_, fun c h => ?_⟩
  · have after := alike.2 c (agree c h)
    cases c
    -- agreement says less than equality where the machines may be of two kinds
    case random =>
      show n.step.2.random = m.step.2.random
      rw [random_step, random_step, executedIn_one_congr alike.1, random]
    case config =>
      show n.step.2.config = m.step.2.config
      rw [config_step, config_step]
      exact apart .config h
    all_goals exact after
  · exact sameAt_step (inner h).1 (inner h).2.1 fun i here => unwritten i c here h

/-- A step that has nothing to do with timers is made whatever they are. -/
theorem step_withTimers (t : Timers) (other : ∀ i, m.Next i → i.opcode ∉ Opcode.timing) :
    { m with timers := t }.step = (m.step.1, { m.step.2 with timers := t }) := by
  obtain ⟨answer, same, kept⟩ := step_of_apart (m := m) (n := { m with timers := t })
    (D := fun c => c = .delay ∨ c = .sound) (fun c h => .inr h)
    (fun c h => by cases c <;> first | rfl | simp at h)
    (fun i c here timer => (Instruction.not_touches_timer (other i here) timer).1)
    (fun i c here timer => (Instruction.not_touches_timer (other i here) timer).2)
  refine Prod.ext answer (eq_of_sameAt fun c => ?_)
  have elsewhere := same c
  cases c
  case delay => exact kept .delay (.inl rfl)
  case sound => exact kept .sound (.inr rfl)
  all_goals exact elsewhere (by simp)

/-- A step that has nothing to do with timers leaves them. -/
theorem timers_step (other : ∀ i, m.Next i → i.opcode ∉ Opcode.timing) :
    m.step.2.timers = m.timers :=
  congrArg (fun x => x.2.timers) (step_withTimers m.timers other)

omit [RandomSource σ] in
/-- A skip on a key hangs on no other key. -/
theorem skipOnKey_withKeypad {x : Fin 16} (p : Keypad) (pressed : Bool)
    (same : ∀ k : Key, (m.reg x).toNat = k.val → p.isPressed k = m.keypad.isPressed k) :
    { m with keypad := p }.skipOnKey x pressed =
      ((m.skipOnKey x pressed).1, { (m.skipOnKey x pressed).2 with keypad := p }) := by
  by_cases key : (m.reg x).toNat < 16
  · have key' : (({ m with keypad := p } : Machine σ).reg x).toNat < 16 := key
    rw [skipOnKey_of_key key, skipOnKey_of_key key']
    have asked : p.isPressed ⟨(m.reg x).toNat, key⟩ = _ := same ⟨(m.reg x).toNat, key⟩ rfl
    show Attempt.done () (skipIf (p.isPressed ⟨(m.reg x).toNat, key⟩ == pressed) _) = _
    rw [asked]
    unfold skipIf
    split_ifs <;> rfl
  · have none : 15 < (m.reg x).toNat := by omega
    have none' : 15 < (({ m with keypad := p } : Machine σ).reg x).toNat := none
    rw [skipOnKey_of_no_key none, skipOnKey_of_no_key none']
    rfl

/-- A step that waits for no key, and asks for none that was set, is made
whatever the keys are. -/
theorem step_withKeypad (p : Keypad) (other : ∀ i, m.Next i → i.opcode ≠ .ldKey)
    (same : ∀ i, m.Next i → i.opcode = .skp ∨ i.opcode = .sknp →
      ∀ k : Key, (m.reg i.x).toNat = k.val → p.isPressed k = m.keypad.isPressed k) :
    { m with keypad := p }.step = (m.step.1, { m.step.2 with keypad := p }) := by
  by_cases asks : ∃ i, m.Next i ∧ (i.opcode = .skp ∨ i.opcode = .sknp)
  · obtain ⟨i, here, op⟩ := asks
    have here' : ({ m with keypad := p } : Machine σ).Next i := here
    have executed : execute i { m with keypad := p }.past =
        ((execute i m.past).1, { (execute i m.past).2 with keypad := p }) := by
      rcases op with op | op
      · simp only [execute, op]
        exact skipOnKey_withKeypad (m := m.past) p true (same i here (.inl op))
      · simp only [execute, op]
        exact skipOnKey_withKeypad (m := m.past) p false (same i here (.inr op))
    rw [step_of_next here, step_of_next here', executed]
    rcases execute i m.past with ⟨_ | _, m'⟩
    · rfl
    · rfl
  · obtain ⟨answer, after, kept⟩ := step_of_apart (m := m) (n := { m with keypad := p })
      (D := (· = .keypad)) (fun c h => .inl h)
      (fun c h => by cases c <;> first | rfl | simp at h)
      (fun i c here e read => by
        subst e
        rcases Instruction.reads_keypad_iff.1 read with op | op | op
        · exact asks ⟨i, here, .inl op⟩
        · exact asks ⟨i, here, .inr op⟩
        · exact other i here op)
      (fun i c _ e => e ▸ Instruction.not_writes_keypad)
    refine Prod.ext answer (eq_of_sameAt fun c => ?_)
    have elsewhere := after c
    cases c
    case keypad => exact kept .keypad rfl
    all_goals exact elsewhere (by simp)

/-! ### Ticks and keys -/

omit [RandomSource σ] in
theorem setKey_of_key {index : Json} {k : Key} (key : Key.ofJson index = .ok k) (v : Bool)
    (m : Machine σ) : m.setKey index v = .done () { m with keypad := m.keypad.set k v } := by
  simp only [setKey, onKeypad, Keypad.setKey, key]

theorem commuteAt_step_tick (other : ∀ i, m.Next i → i.opcode ∉ Opcode.timing) :
    Event.CommuteAt .step .tick m := by
  have ticked : m.tickTimers.step = (m.step.1, { m.step.2 with timers := m.timers.tick }) :=
    step_withTimers _ other
  refine ⟨?_, rfl, ?_⟩
  · show m.tickTimers.step.1.map _ = _
    rw [ticked]
    rfl
  · show m.step.2.tickTimers = m.tickTimers.step.2
    rw [ticked, tickTimers, timers_step other]

theorem commuteAt_step_setKey {index : Json} {k : Key} (key : Key.ofJson index = .ok k) (v : Bool)
    (other : ∀ i, m.Next i → i.opcode ≠ .ldKey)
    (unasked : ∀ i, m.Next i → i.opcode = .skp ∨ i.opcode = .sknp → (m.reg i.x).toNat ≠ k.val) :
    Event.CommuteAt .step (.setKey index v) m := by
  have set : { m with keypad := m.keypad.set k v }.step =
      (m.step.1, { m.step.2 with keypad := m.keypad.set k v }) := by
    refine step_withKeypad _ other fun i here op j asked => ?_
    rw [Keypad.isPressed_set, if_neg]
    rintro rfl
    exact unasked i here op asked
  simp only [Event.CommuteAt, after, Event.perform, setKey_of_key key]
  refine ⟨?_, rfl, ?_⟩
  · show ({ m with keypad := m.keypad.set k v } : Machine σ).step.1.map _ = _
    rw [set]
    rfl
  · show ({ m.step.2 with keypad := m.step.2.keypad.set k v } : Machine σ) =
      ({ m with keypad := m.keypad.set k v } : Machine σ).step.2
    rw [set, keypad_step]

/-- A tick and a key have nothing to do with each other. -/
theorem commuteAt_tick_setKey (index : Json) (v : Bool) (m : Machine σ) :
    Event.CommuteAt .tick (.setKey index v) m := ⟨rfl, rfl, rfl⟩

/-- **What the host does commutes with the steps that do not look at it.** A tick
may come before or after any instruction but `FX07`, `FX15` and `FX18`. A key may
be set before or after any instruction but `FX0A`, and `EX9E` and `EXA1` where
`VX` is that key. And a tick and a key may always come in either order. Where the
step faults it meets the same fault in either order, and so it does where no
instruction lies at the program counter. -/
theorem host_events_commute_with_steps (m : Machine σ) :
    ((∀ i, m.Next i → i.opcode ∉ [.ldVxDt, .ldDtVx, .ldStVx]) → Event.CommuteAt .step .tick m) ∧
    (∀ index k v, Key.ofJson index = .ok k →
      (∀ i, m.Next i → i.opcode ≠ .ldKey) →
      (∀ i, m.Next i → i.opcode = .skp ∨ i.opcode = .sknp → (m.reg i.x).toNat ≠ k.val) →
        Event.CommuteAt .step (.setKey index v) m) ∧
    ∀ index v, Event.CommuteAt .tick (.setKey index v) m :=
  ⟨commuteAt_step_tick, fun _ _ v key other unasked => commuteAt_step_setKey key v other unasked,
    fun index v => commuteAt_tick_setKey index v m⟩

/-- `E39E` asks for a key that `V3` does not name, while the delay timer runs. -/
def asking : Machine Supply :=
  { filled 0 0x200 0 with
    memory := Memory.overlay 0x200 [0xE3, 0x9E] (.replicate 4096 0)
    registers := .replicate 16 0x20
    timers := ⟨9, 0⟩ }

/-- `E39E` meets its fault whether a tick and a key come before it or after. -/
theorem asking_faults_in_any_order :
    asking.Next ⟨0xE39E, .skp⟩ ∧ asking.step.1 = .error (.keyOutOfRange 0x20) ∧
      Event.CommuteAt .step .tick asking ∧
      (asking.after [.step, .tick]).timers.delay = 8 ∧
      Key.ofJson (.int 7) = .ok 7 ∧ (asking.reg 3).toNat ≠ (7 : Key).val ∧
      Event.CommuteAt .step (.setKey (.int 7) true) asking ∧
      (asking.after [.step, .setKey (.int 7) true]).keypad.isPressed 7 = true := by
  have here : asking.Next ⟨0xE39E, .skp⟩ := by
    refine ⟨⟨by decide, ?_⟩, by decide⟩
    simp [asking, filled, Memory.byteAt, Memory.getElem_overlay]
  have refused : refusal? ⟨0xE39E, .skp⟩ asking = some (.keyOutOfRange 0x20) := by decide
  have faults := step_of_refused here refused
  have key : Key.ofJson (.int 7) = .ok 7 := by decide
  obtain ⟨tick, set, -⟩ := host_events_commute_with_steps asking
  refine ⟨here, by rw [faults], tick fun i there => ?_, ?_, key, by decide,
    set _ 7 true key (fun i there => ?_) fun i there _ => ?_, ?_⟩
  · rw [there.unique here]
    decide
  · simp only [after, Event.perform, Attempt.answering, faults]
    decide
  · rw [there.unique here]
    decide
  · rw [there.unique here]
    decide
  · simp only [after, Event.perform, Attempt.answering, faults]
    decide

end Machine

end ChipEight
