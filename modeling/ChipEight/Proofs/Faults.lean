/-
# When a step faults, and what it leaves

A step faults in six cases and no others (`Machine.Faulty`): the program
counter is not at a word, the word is no instruction, a call finds the stack
full, a return finds it empty, a key is asked for that there is not, or data
are not all in memory. Nothing is bounded in this but by the types and
`WellFormed`: program counter and index may be any whole numbers.

A fault comes before its instruction has done anything, so all that it leaves
behind is the counter past the word; at the fetch not even that, and a machine
that faults there does so for ever.

Key definitions: `Machine.Faulty`, `Machine.IsAttempt`.
Key theorems: `Machine.step_error_iff`, `Machine.step_faults_exactly`,
`Machine.step_of_faulty`, `Machine.fault_changes_nothing`.
-/
import ChipEight.Proofs.History
import ChipEight.Proofs.Stepping
import ChipEight.Random.Supply

namespace ChipEight

namespace Machine

variable {σ : Type} {m : Machine σ} {i : Instruction} {f : Fault}

/-- The fault that a step from the machine ends in. -/
inductive Faulty (m : Machine σ) : Fault → Prop
  /-- The program counter is not at a word in memory. -/
  | fetch (outside : ¬(0 ≤ m.pc ∧ m.pc ≤ 4094)) : m.Faulty (.fetchOutOfRange m.pc)
  /-- The word fits no encoding; the fault tells the word and where it is. -/
  | word {w : UInt16} (here : m.WordAt w) (unfit : ∀ op : Opcode, ¬op.pattern.Fits w) :
      m.Faulty (.unimplemented w.toNat (some m.pc))
  /-- `2NNN` with sixteen return addresses on the stack. -/
  | overflow {i : Instruction} (here : m.Next i) (op : i.opcode = .call) (full : m.sp.val = 16) :
      m.Faulty .stackOverflow
  /-- `00EE` with none. -/
  | underflow {i : Instruction} (here : m.Next i) (op : i.opcode = .ret) (empty : m.sp.val = 0) :
      m.Faulty .stackUnderflow
  /-- `EX9E` or `EXA1` with no key of the number in the register. -/
  | key {i : Instruction} (here : m.Next i) (op : i.opcode = .skp ∨ i.opcode = .sknp)
      (noKey : 15 < (m.reg i.x).toNat) : m.Faulty (.keyOutOfRange (m.reg i.x).toNat)
  /-- `DXYN`, `FX33`, `FX55` or `FX65` with data that are not all in memory; the
  fault tells where they leave it. -/
  | data {i : Instruction} {length : Nat} (here : m.Next i) (span : i.span? = some length)
      (nonempty : 0 < length) (outside : ¬(0 ≤ m.index ∧ m.index + length ≤ 4096)) :
      m.Faulty (.memoryAccess
        (if 0 ≤ m.index ∧ m.index < 4096 then m.index + length - 1 else m.index))

/-! ### Which faults there are -/

theorem Faulty.of_refusal? (hn : m.Next i) (h : refusal? i m = some f) : m.Faulty f := by
  cases e : i.opcode
  case call =>
    simp only [refusal?, e, Option.ite_none_right_eq_some, Option.some.injEq] at h
    obtain ⟨full, rfl⟩ := h
    exact .overflow hn e full
  case ret =>
    simp only [refusal?, e, Option.ite_none_right_eq_some, Option.some.injEq] at h
    obtain ⟨empty, rfl⟩ := h
    exact .underflow hn e empty
  case skp | sknp =>
    simp only [refusal?, e, Option.ite_none_right_eq_some, Option.some.injEq] at h
    obtain ⟨noKey, rfl⟩ := h
    exact .key hn (by simp [e]) noKey
  all_goals
    simp only [refusal?, e, Option.map_eq_some_iff, Option.bind_eq_some_iff] at h
    obtain ⟨a, ⟨length, span, ha⟩, rfl⟩ := h
    obtain ⟨nonempty, outside, rfl⟩ := Span.outside?_eq_some_iff.1 ha
    exact .data hn span nonempty outside

theorem Faulty.kind (h : m.Faulty f) :
    f.kind? ∈ [some .unimplementedInstruction, some .stackOverflow, some .stackUnderflow,
      some .memoryAccess, some .invalidKey] := by
  cases h <;> simp [Fault.kind?]

variable [RandomSource σ]

/-- Where a step is bound to fault, it does, and leaves everything but the
program counter alone. -/
theorem step_of_faulty (h : m.Faulty f) :
    m.step = .fail f (if 0 ≤ m.pc ∧ m.pc ≤ 4094 then m.past else m) := by
  cases h with
  | fetch outside => rw [step_of_fetch_outside outside, if_neg outside]
  | word here unfit => rw [step_of_no_opcode here unfit, if_pos here.1]
  | overflow here op full =>
    rw [step_of_refused here (refusal?_of_full op full), if_pos here.1.1]
  | underflow here op empty =>
    rw [step_of_refused here (refusal?_of_empty op empty), if_pos here.1.1]
  | key here op noKey =>
    rw [step_of_refused here (refusal?_of_no_key op noKey), if_pos here.1.1]
  | data here span nonempty outside =>
    rw [step_of_refused here (refusal?_of_outside span nonempty outside), if_pos here.1.1]

theorem step_error_iff (wf : m.WellFormed) : m.step.1 = .error f ↔ m.Faulty f := by
  refine ⟨fun h => ?_, fun h => by rw [step_of_faulty h]⟩
  rcases step_cases wf with ⟨ho, e⟩ | ⟨w, hw, ho, e⟩ | ⟨i, g, hn, hr, e⟩ | ⟨i, hn, hr, e⟩
  · rw [e] at h
    obtain rfl := Except.error.inj h
    exact .fetch ho
  · rw [e] at h
    obtain rfl := Except.error.inj h
    exact .word hw ho
  · rw [e] at h
    obtain rfl := Except.error.inj h
    exact .of_refusal? hn hr
  · rw [e] at h
    cases h

/-- **A step faults in those cases and succeeds in all others.** The fault is
always one of the machine's own family, and an address that is reported for
data is one of those asked for, and outside memory. -/
theorem step_faults_exactly (wf : m.WellFormed) :
    (∀ f, m.step.1 = .error f ↔ m.Faulty f) ∧
      ((∃ i, m.step.1 = .ok i) ↔ ∀ f, ¬m.Faulty f) ∧
      (∀ f, m.Faulty f →
        f.kind? ∈ [some .unimplementedInstruction, some .stackOverflow, some .stackUnderflow,
          some .memoryAccess, some .invalidKey]) ∧
      ∀ a, m.Faulty (.memoryAccess a) → ∃ i length, m.Next i ∧ i.span? = some length ∧
        (m.index ≤ a ∧ a < m.index + length) ∧ ¬(0 ≤ a ∧ a < 4096) := by
  refine ⟨fun f => step_error_iff wf, ⟨?_, ?_⟩, fun f h => h.kind, fun a h => ?_⟩
  · rintro ⟨i, e⟩ f h
    rw [← step_error_iff wf, e] at h
    cases h
  · intro noFault
    rcases e : m.step.1 with f | i
    · exact absurd ((step_error_iff wf).1 e) (noFault f)
    · exact ⟨i, rfl⟩
  · cases h with
    | data here span nonempty outside =>
      exact ⟨_, _, here, span,
        Span.of_outside?_eq_some (Span.outside?_eq_some_iff.2 ⟨nonempty, outside, rfl⟩)⟩

/-- A machine whose memory is all of one byte. -/
def filled (b : UInt8) (pc index : Int) : Machine Supply :=
  { powerOn Config.standard (.constant 0xAB) with
    memory := .replicate 4096 b
    pc := pc
    index := index }

theorem wellFormed_filled (b : UInt8) (pc index : Int) : (filled b pc index).WellFormed := by
  have byte : 0 ≤ (0 : Int) ∧ (0 : Int) ≤ 255 := by decide
  exact ⟨byte, byte, .inr rfl⟩

/-- `D3D3` draws three rows, of which the last is just outside memory. -/
theorem filled_faults_at_data :
    (filled 0xD3 0x200 0xFFE).WellFormed ∧
      (filled 0xD3 0x200 0xFFE).step.1 = .error (.memoryAccess 0x1000) := by
  have wf := wellFormed_filled 0xD3 0x200 0xFFE
  refine ⟨wf, ((step_faults_exactly wf).1 _).2 ?_⟩
  have here : (filled 0xD3 0x200 0xFFE).Next ⟨0xD3D3, .drw⟩ := by
    refine ⟨⟨by decide, ?_⟩, by decide⟩
    simp [filled, Memory.byteAt]
  exact .data here rfl (by decide) (by decide)

/-! ### What a fault leaves -/

/-- A call that asks for at least one instruction and for nothing else. -/
def IsAttempt : Call → Prop
  | .event .step => True
  | .run count => 1 ≤ count
  | _ => False

theorem run_of_step_fail {count : Int} {m' : Machine σ} (atLeastOne : 1 ≤ count)
    (h : m.step = .fail f m') : m.run count = .fail f m' := by
  obtain ⟨k, rfl⟩ : ∃ k : Nat, count = k + 1 := ⟨(count - 1).toNat, by omega⟩
  have e : ((k : Int) + 1).toNat = k + 1 := by omega
  rw [run, e, steps, h, Attempt.andThen_fail, Attempt.andThen_fail]

theorem perform_of_step_fail {c : Call} {m' : Machine σ} (attempt : IsAttempt c)
    (h : m.step = .fail f m') : c.perform m = .fail f m' := by
  match c, attempt with
  | .event .step, _ =>
    show m.step.answering Answer.instruction = _
    rw [h]
    rfl
  | .run count, attempt =>
    show (m.run count).answering Answer.count = _
    rw [run_of_step_fail attempt h]
    rfl

/-- A machine that a fault leaves as it was faults so at every attempt. -/
theorem attempts_of_step_fail (h : m.step = .fail f m) :
    ∀ calls : List Call, (∀ c ∈ calls, IsAttempt c) →
      m.answers calls = calls.map (fun _ => .error f) ∧ m.afterCalls calls = m
  | [], _ => ⟨rfl, rfl⟩
  | c :: calls, attempts => by
    have first := perform_of_step_fail (attempts c List.mem_cons_self) h
    have rest := attempts_of_step_fail h calls fun c hc => attempts c (List.mem_cons_of_mem _ hc)
    simpa only [answers, afterCalls, first, List.map_cons, List.cons.injEq, true_and] using rest

/-- The two kinds of fault by what they leave. -/
theorem Faulty.leaves (h : m.Faulty f) :
    (f = .fetchOutOfRange m.pc ∧ m.step = .fail f m) ∨
      ((∀ a, f ≠ .fetchOutOfRange a) ∧ m.step = .fail f m.past) := by
  have e := step_of_faulty h
  cases h with
  | fetch outside =>
    rw [if_neg outside] at e
    exact .inl ⟨rfl, e⟩
  | word here unfit =>
    rw [if_pos here.1] at e
    exact .inr ⟨fun a => by simp, e⟩
  | overflow here | underflow here | key here | data here =>
    rw [if_pos here.1.1] at e
    exact .inr ⟨fun a => by simp, e⟩

/-- **A fault changes nothing but the program counter**, which is past the
word, and a fault at the fetch does not even change that. So from then on every
attempt to execute anything meets the same fault. -/
theorem fault_changes_nothing (wf : m.WellFormed) (h : m.step.1 = .error f) :
    ((∀ a, f ≠ .fetchOutOfRange a) → m.step.2 = { m with pc := m.pc + 2 }) ∧
      ∀ a, f = .fetchOutOfRange a → m.step.2 = m ∧
        ∀ calls : List Call, (∀ c ∈ calls, IsAttempt c) →
          m.step.2.answers calls = calls.map (fun _ => .error (.fetchOutOfRange a)) ∧
            m.step.2.afterCalls calls = m := by
  rcases ((step_error_iff wf).1 h).leaves with ⟨hf, e⟩ | ⟨hf, e⟩
  · refine ⟨fun other => absurd hf (other m.pc), ?_⟩
    rintro a rfl
    rw [e]
    exact ⟨rfl, attempts_of_step_fail e⟩
  · refine ⟨fun _ => by rw [e]; rfl, fun a ha => absurd ha (hf a)⟩

/-- With one byte of a word left there is no fetching it, nor later. -/
theorem filled_faults_for_ever :
    (filled 0 0xFFF 0).WellFormed ∧
      (filled 0 0xFFF 0).step.1 = .error (.fetchOutOfRange 0xFFF) ∧
      (filled 0 0xFFF 0).step.2.answers [.event .step, .run 5] =
        [.error (.fetchOutOfRange 0xFFF), .error (.fetchOutOfRange 0xFFF)] := by
  have wf := wellFormed_filled 0 0xFFF 0
  have h : (filled 0 0xFFF 0).step.1 = .error (.fetchOutOfRange 0xFFF) := by
    rw [step_of_fetch_outside (by decide)]
    rfl
  refine ⟨wf, h, (((fault_changes_nothing wf h).2 _ rfl).2 _ ?_).1⟩
  simp [IsAttempt]

end Machine

end ChipEight
