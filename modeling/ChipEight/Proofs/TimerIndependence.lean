/-
# What the timers matter to

Timers reach a program through `FX07` and through nothing else. Take two
machines that differ in their timers at most, and calls to them that differ in
ticks and in settings of the timers, wherever and however often those are made.
As long as the first machine executes no `FX07`, both execute the same
instructions with the same answers and faults, and differ in their timers at
most in the end.

So how a run is cut into frames, each with its tick, is nothing to a program
that does not read the delay timer: all the frames come to one run.

Key definitions: `Call.isTimer`, `Machine.untimedAnswers`,
`Machine.AgreeButTimers`, `Machine.Untimed`, `Machine.SameButTimers`.
Key theorems: `Machine.lockstep_untimed`, `Machine.Untimed.filter_left`,
`Machine.Untimed.filter_right`, `Machine.run_of_frames`,
`Machine.timers_reach_delay_reads_only`.
-/
import ChipEight.Proofs.Bounds
import ChipEight.Proofs.CallStack
import ChipEight.Proofs.Snapshots
import Mathlib.Algebra.Ring.Int.Defs
import Mathlib.Algebra.Ring.Nat

namespace ChipEight

/-- Whether a call does nothing but let the timers tick or set one. -/
def Call.isTimer : Call → Bool
  | .event .tick | .event (.setDelay _) | .event (.setSound _) => true
  | _ => false

theorem Call.isTimer_iff {c : Call} : c.isTimer ↔
    c = .event .tick ∨ ∃ v, c = .event (.setDelay v) ∨ c = .event (.setSound v) := by
  constructor
  · intro h
    unfold isTimer at h
    split at h
    · exact .inl rfl
    · exact .inr ⟨_, .inl rfl⟩
    · exact .inr ⟨_, .inr rfl⟩
    · cases h
  · rintro (rfl | ⟨v, rfl | rfl⟩)
    all_goals rfl

/-- An answer without what it shows of the timers. -/
def Answer.untimed : Answer → Answer
  | .frame r => .frame { r with soundActive := false, state := { r.state with timers := {} } }
  | a => a

namespace Machine

section

variable {σ : Type} [RandomSource σ]

/-- What some calls answer, without the calls that are for the timers and
without what the others show of them. -/
def untimedAnswers : List Call → Machine σ → List (Except Fault Answer)
  | [], _ => []
  | c :: cs, m =>
    if c.isTimer then untimedAnswers cs (c.perform m).2
    else (c.perform m).1.map Answer.untimed :: untimedAnswers cs (c.perform m).2

end

variable {σ τ : Type} [RandomSource σ] [RandomSource τ] {m : Machine σ} {n : Machine τ}

/-- The machines agree in everything but the timers. -/
def AgreeButTimers (m : Machine σ) (n : Machine τ) : Prop :=
  ∀ c, c ≠ .delay → c ≠ .sound → AgreeAt m n c

/-- The machines agree in everything but the timers, and the instructions ahead
do not read those. -/
structure Untimed (ahead : List Instruction) (m : Machine σ) (n : Machine τ) : Prop where
  wellFormed : m.WellFormed
  unread : ∀ i ∈ ahead, i.opcode ≠ .ldVxDt
  agree : AgreeButTimers m n

/-- The calls `ds` to the second machine come to the same as the calls `cs` to
the first, the timers apart. -/
structure SameButTimers (cs ds : List Call) (m : Machine σ) (n : Machine τ) : Prop where
  executed : n.executed ds = m.executed cs
  answers : n.untimedAnswers ds = m.untimedAnswers cs
  after : AgreeButTimers (m.afterCalls cs) (n.afterCalls ds)

/-! ### Steps and calls -/

/-- The delay timer of a well-formed machine is read without a fault. -/
theorem executedIn_of_ldVxDt {i : Instruction} (wf : m.WellFormed) (here : m.Next i)
    (op : i.opcode = .ldVxDt) : m.executedIn 1 = [i] := by
  have free : refusal? i m = none := by simp [refusal?, op, Instruction.span?]
  exact executedIn_of_done (step_of_not_refused wf here free) 0

theorem Untimed.step {ahead : List Instruction} (h : Untimed (m.executedIn 1 ++ ahead) m n) :
    n.step.1 = m.step.1 ∧ Untimed ahead m.step.2 n.step.2 := by
  have delay : ¬m.StepReads .delay := by
    refine not_stepReads (by simp) (by simp) fun i here read => ?_
    have op : i.opcode = .ldVxDt := Instruction.reads_delay_iff.1 read
    refine h.unread i ?_ op
    rw [executedIn_of_ldVxDt h.wellFormed here op]
    exact List.mem_cons_self
  have sound : ¬m.StepReads .sound :=
    not_stepReads (by simp) (by simp) fun _ _ => Instruction.not_reads_sound
  have alike : EndAlike m n m.step n.step := by
    refine step_of_agree (fun c read => h.agree c ?_ ?_) fun i _ _ => ?_
    · rintro rfl
      exact delay read
    · rintro rfl
      exact sound read
    · exact h.agree .random (by simp) (by simp) 0
  exact ⟨alike.1, h.wellFormed.step, fun i hi => h.unread i (List.mem_append_right _ hi),
    fun c hd hs => alike.2 c (h.agree c hd hs)⟩

theorem lockstep_untimed : Lockstep Answer.untimed (Untimed (σ := σ) (τ := τ)) where
  step h := h.step
  event e ne h := by
    have alike := perform_of_agree ne (h.agree .keypad (by simp) (by simp))
    exact ⟨alike.1, h.wellFormed.perform e, h.unread, fun c hd hs => alike.2 c (h.agree c hd hs)⟩
  keys f h := by
    have alike := onKeypad_of_agree (h.agree .keypad (by simp) (by simp)) f
    have wf := h.wellFormed
    exact ⟨alike.1, { wf with }, h.unread, fun c hd hs => alike.2 c (h.agree c hd hs)⟩
  frame count h := by
    rw [snapshot_of_agree fun c hd hs _ _ => h.agree c hd hs]
    rfl

/-! ### Calls for the timers -/

theorem executed_of_isTimer {c : Call} (h : c.isTimer) (m : Machine σ) : c.executed m = [] := by
  rcases Call.isTimer_iff.1 h with rfl | ⟨v, rfl | rfl⟩
  all_goals rfl

theorem WellFormed.of_isTimer {c : Call} (h : c.isTimer) (wf : m.WellFormed) :
    (c.perform m).2.WellFormed := by
  rcases Call.isTimer_iff.1 h with rfl | ⟨v, rfl | rfl⟩
  · exact wf.perform .tick
  · exact wf.perform (.setDelay v)
  · exact wf.perform (.setSound v)

theorem sameAt_of_isTimer {c : Call} (h : c.isTimer) {cell : Cell} (hd : cell ≠ .delay)
    (hs : cell ≠ .sound) : m.SameAt (c.perform m).2 cell := by
  rcases Call.isTimer_iff.1 h with rfl | ⟨v, rfl | rfl⟩
  all_goals cases cell <;> first | rfl | contradiction

theorem Untimed.timer_left {c : Call} (h : c.isTimer) {ahead : List Instruction}
    (u : Untimed ahead m n) : Untimed ahead (c.perform m).2 n :=
  ⟨.of_isTimer h u.wellFormed, u.unread, fun cell hd hs =>
    (u.agree cell hd hs).of_sameAt (sameAt_of_isTimer h hd hs) (.refl n cell)⟩

theorem Untimed.timer_right {c : Call} (h : c.isTimer) {ahead : List Instruction}
    (u : Untimed ahead m n) : Untimed ahead m (c.perform n).2 :=
  ⟨u.wellFormed, u.unread, fun cell hd hs =>
    (u.agree cell hd hs).of_sameAt (.refl m cell) (sameAt_of_isTimer h hd hs)⟩

/-! ### Histories -/

theorem SameButTimers.timer_left {c : Call} {cs ds : List Call} (h : c.isTimer)
    (same : SameButTimers cs ds (c.perform m).2 n) : SameButTimers (c :: cs) ds m n where
  executed := by rw [Machine.executed, executed_of_isTimer h, same.executed, List.nil_append]
  answers := by rw [same.answers, untimedAnswers, if_pos h]
  after := same.after

theorem SameButTimers.timer_right {d : Call} {cs ds : List Call} (h : d.isTimer)
    (same : SameButTimers cs ds m (d.perform n).2) : SameButTimers cs (d :: ds) m n where
  executed := by rw [Machine.executed, executed_of_isTimer h, same.executed, List.nil_append]
  answers := by rw [untimedAnswers, if_pos h, same.answers]
  after := same.after

/-- A call that both machines do alike. -/
theorem SameButTimers.cons {c : Call} {cs ds : List Call} (h : ¬c.isTimer)
    (executed : c.executed n = c.executed m)
    (answer : (c.perform n).1.map Answer.untimed = (c.perform m).1.map Answer.untimed)
    (same : SameButTimers cs ds (c.perform m).2 (c.perform n).2) :
    SameButTimers (c :: cs) (c :: ds) m n where
  executed := by rw [Machine.executed, Machine.executed, executed, same.executed]
  answers := by
    rw [untimedAnswers, untimedAnswers, if_neg h, if_neg h, answer, same.answers]
  after := same.after

/-- Ticks and settings of the timers can be left out. -/
theorem Untimed.filter_left : ∀ (cs : List Call) {m : Machine σ} {n : Machine τ},
    Untimed (m.executed cs) m n → SameButTimers cs (cs.filter fun c => !c.isTimer) m n
  | [], _, _, u => ⟨rfl, rfl, u.agree⟩
  | c :: cs, m, n, u => by
    by_cases h : c.isTimer
    · rw [executed, executed_of_isTimer h, List.nil_append] at u
      rw [List.filter_cons_of_neg (by simp [h])]
      exact .timer_left h (filter_left cs (u.timer_left h))
    · obtain ⟨executed, answer, after⟩ := lockstep_untimed.call c u
      rw [List.filter_cons_of_pos (by simp [h])]
      exact .cons h executed answer (filter_left cs after)

/-- Ticks and settings of the timers can be put in. -/
theorem Untimed.filter_right : ∀ (ds : List Call) {m : Machine σ} {n : Machine τ},
    Untimed (m.executed (ds.filter fun c => !c.isTimer)) m n →
      SameButTimers (ds.filter fun c => !c.isTimer) ds m n
  | [], _, _, u => ⟨rfl, rfl, u.agree⟩
  | d :: ds, m, n, u => by
    by_cases h : d.isTimer
    · rw [List.filter_cons_of_neg (by simp [h])] at u ⊢
      exact .timer_right h (filter_right ds (u.timer_right h))
    · rw [List.filter_cons_of_pos (by simp [h])] at u ⊢
      obtain ⟨executed, answer, after⟩ := lockstep_untimed.call d u
      exact .cons h executed answer (filter_right ds after)

theorem SameButTimers.trans {υ : Type} [RandomSource υ] {l : Machine υ} {cs ds es : List Call}
    (h : SameButTimers cs ds m n) (h' : SameButTimers ds es n l) : SameButTimers cs es m l where
  executed := h'.executed.trans h.executed
  answers := h'.answers.trans h.answers
  after := fun c hd hs => (h.after c hd hs).trans (h'.after c hd hs)

/-- Calls that differ in ticks and settings of the timers at most. -/
theorem sameButTimers_of_filter_eq {cs ds : List Call} (wf : m.WellFormed)
    (agree : AgreeButTimers m n)
    (calls : (cs.filter fun c => !c.isTimer) = ds.filter fun c => !c.isTimer)
    (unread : ∀ i ∈ m.executed cs, i.opcode ≠ .ldVxDt) : SameButTimers cs ds m n := by
  have out : SameButTimers cs (cs.filter fun c => !c.isTimer) m m :=
    Untimed.filter_left cs ⟨wf, unread, fun c _ _ => .refl m c⟩
  rw [calls] at out
  refine out.trans (Untimed.filter_right ds ⟨wf, ?_, agree⟩)
  rwa [out.executed]

/-! ### Frames -/

/-- A frame that changes no key and runs so many instructions. -/
def unpressed (b : Int) : FrameInputs := { instructions := some b }

omit [RandomSource σ] in
theorem onKeypad_unpressed (b : Int) (m : Machine σ) :
    m.onKeypad (Console.applyKeys (unpressed b)) = .done () m := rfl

theorem budget_unpressed (b : Int) (pace : Config) :
    Console.budget (unpressed b) pace = .ok b := rfl

theorem runMachine_unpressed (b : Int) (pace : Config) (m : Machine σ) :
    Console.runMachine (unpressed b) pace m = m.run b := by
  rw [Console.runMachine, onKeypad_unpressed, Attempt.andThen_done, budget_unpressed]

theorem executed_unpressed (b : Int) (pace : Config) (m : Machine σ) :
    (Call.frame pace (unpressed b)).executed m = m.executedIn b.toNat := by
  simp only [Call.executed, onKeypad_unpressed, budget_unpressed]

theorem steps_of_run_done {b k : Int} {m' : Machine σ} (h : m.run b = .done k m') :
    m.steps b.toNat = .done () m' := by
  obtain ⟨⟨⟩, m'', done, e⟩ := Attempt.andThen_eq_done_iff.1 h
  obtain rfl : m'' = m' := congrArg Prod.snd e
  exact done

/-- What is behind frames that do not fault: the first comes to a run and a
tick, and then come the others. -/
theorem of_runFrames_done {pace : Config} {b : Int} {bs : List Int} {count : Nat}
    {results : List FrameResult} {c : Console σ}
    (h : Console.runFrames ((b :: bs).map unpressed) ⟨m, pace, count⟩ = .done results c) :
    ∃ k m' rest, m.run b = .done k m' ∧
      ((Call.frame pace (unpressed b)).perform m).2 = m'.tickTimers ∧
      Console.runFrames (bs.map unpressed) ⟨m'.tickTimers, pace, count + 1⟩ = .done rest c := by
  rw [List.map_cons, Console.runFrames, Console.runFrame, Console.onMachine,
    runMachine_unpressed] at h
  rw [perform_frame, runMachine_unpressed]
  rcases em : m.run b with ⟨f | k, m'⟩
  · rw [em] at h
    cases h
  · rw [em] at h
    simp only [Attempt.andThen_done] at h
    rcases er : Console.runFrames (bs.map unpressed) ⟨m'.tickTimers, pace, count + 1⟩
      with ⟨f | rest, c'⟩
    · rw [er] at h
      cases h
    · rw [er] at h
      obtain rfl : c' = c := congrArg Prod.snd h
      exact ⟨k, m', rest, rfl, rfl, er⟩

/-- Frames that do not fault come to one run, on a machine that differs in its
timers at most. -/
theorem run_of_frames (pace : Config) : ∀ (bs : List Int) {m : Machine σ} {n : Machine τ}
    {count : Nat} {results : List FrameResult} {c : Console σ},
    Untimed (m.executed (bs.map fun b => .frame pace (unpressed b))) m n →
    Console.runFrames (bs.map unpressed) ⟨m, pace, count⟩ = .done results c →
    ∃ n', n.steps (bs.map Int.toNat).sum = .done () n' ∧
      n.executedIn (bs.map Int.toNat).sum =
        m.executed (bs.map fun b => .frame pace (unpressed b)) ∧
      AgreeButTimers c.machine n'
  | [], _, n, _, _, _, u, h => by
    obtain rfl := congrArg Prod.snd h
    exact ⟨n, rfl, rfl, u.agree⟩
  | b :: bs, m, n, count, results, c, u, h => by
    obtain ⟨k, m', rest, em, ticked, frames⟩ := of_runFrames_done h
    obtain ⟨executed, outcome, after⟩ := lockstep_untimed.runMachine pace (unpressed b) u
    rw [executed_unpressed, executed_unpressed] at executed
    rw [runMachine_unpressed, runMachine_unpressed, em] at outcome after
    have first : n.steps b.toNat = .done () (n.run b).2 :=
      steps_of_run_done (Prod.ext outcome rfl)
    -- the tick goes to the first machine alone
    rw [ticked] at after
    obtain ⟨n', steps, executed', agree⟩ :=
      run_of_frames pace bs (after.timer_left (c := .event .tick) rfl) frames
    refine ⟨n', ?_, ?_, agree⟩
    · rw [List.map_cons, List.sum_cons, steps_add, first, Attempt.andThen_done, steps]
    · rw [List.map_cons, List.sum_cons, executedIn_add _ _ first, List.map_cons, Machine.executed,
        executed_unpressed, executed, executed', ticked]

theorem toNat_sum_max (bs : List Int) :
    (bs.map fun b => max b 0).sum = ((bs.map Int.toNat).sum : Nat) := by
  induction bs with
  | nil => rfl
  | cons b bs ih =>
    rw [List.map_cons, List.map_cons, List.sum_cons, List.sum_cons, ih]
    push_cast
    omega

/-- **Timers reach a program through `FX07` alone.** Two machines, of which the
first is well-formed, differ in their timers at most; they are called alike, but
for ticks and settings of the timers. If the first executes no `FX07`, both
execute the same instructions, answer the same but for the timers, and differ in
their timers at most afterwards. And frames that neither change a key nor fault
come to one run of as many instructions. -/
theorem timers_reach_delay_reads_only (wf : m.WellFormed) (agree : AgreeButTimers m n) :
    (∀ cs ds : List Call,
      (cs.filter fun c => !c.isTimer) = (ds.filter fun c => !c.isTimer) →
      (∀ i ∈ m.executed cs, i.opcode ≠ .ldVxDt) →
      n.executed ds = m.executed cs ∧ n.untimedAnswers ds = m.untimedAnswers cs ∧
        AgreeButTimers (m.afterCalls cs) (n.afterCalls ds)) ∧
    ∀ (pace : Config) (count : Nat) (bs : List Int) (results : List FrameResult) (c : Console σ),
      Console.runFrames (bs.map unpressed) ⟨m, pace, count⟩ = .done results c →
      (∀ i ∈ m.executed (bs.map fun b => .frame pace (unpressed b)), i.opcode ≠ .ldVxDt) →
      let total := (bs.map fun b => max b 0).sum
      ∃ m', m.run total = .done total m' ∧
        m.executed [.run total] = m.executed (bs.map fun b => .frame pace (unpressed b)) ∧
        AgreeButTimers c.machine m' := by
  refine ⟨fun cs ds calls unread => ?_, fun pace count bs results c frames unread => ?_⟩
  · have same := sameButTimers_of_filter_eq wf agree calls unread
    exact ⟨same.executed, same.answers, same.after⟩
  · obtain ⟨m', steps, executed, agree⟩ :=
      run_of_frames pace bs ⟨wf, unread, fun c _ _ => .refl m c⟩ frames
    intro total
    have toNat : total.toNat = (bs.map Int.toNat).sum := by
      rw [show total = _ from toNat_sum_max bs, Int.toNat_natCast]
    have whole : max total 0 = total := by
      rw [show total = _ from toNat_sum_max bs]
      omega
    refine ⟨m', ?_, ?_, agree⟩
    · rw [run, toNat, steps, Attempt.andThen_done, whole]
    · rw [Machine.executed, Machine.executed, Call.executed, toNat, List.append_nil, executed]

/-- The machine before a call to a subroutine, with its timers set. -/
def timed (delay sound : Int) : Machine Supply := { calling with timers := ⟨delay, sound⟩ }

/-- The call, the instruction in the subroutine and the return, in frames and
ticks as it comes. -/
theorem timed_calls_and_returns :
    (timed 5 3).WellFormed ∧ AgreeButTimers (timed 5 3) (timed 0 200) ∧
      (timed 0 200).untimedAnswers
          [.event (.setDelay 7), .event .step, .event .tick, .frame Config.standard (unpressed 2)] =
        (timed 5 3).untimedAnswers [.event .step, .frame Config.standard (unpressed 2)] ∧
      ∃ results c m', Console.runFrames ([2, -1, 1].map unpressed)
          ⟨timed 5 3, Config.standard, 0⟩ = .done results c ∧
        (timed 5 3).run 3 = .done 3 m' ∧ AgreeButTimers c.machine m' := by
  have wf : (timed 5 3).WellFormed := ⟨by decide, by decide, .inr rfl⟩
  have agree : AgreeButTimers (timed 5 3) (timed 0 200) := by
    intro c hd hs
    cases c
    case delay => exact absurd rfl hd
    case sound => exact absurd rfl hs
    case random => exact fun k => rfl
    all_goals rfl
  have unread : ∀ i ∈ (timed 5 3).executed [.event .step, .frame Config.standard (unpressed 2)],
      i.opcode ≠ .ldVxDt := by
    decide +kernel
  have unread' : ∀ i ∈ (timed 5 3).executed
      ([2, -1, 1].map fun b => .frame Config.standard (unpressed b)), i.opcode ≠ .ldVxDt := by
    decide +kernel
  have done : (Console.runFrames ([2, -1, 1].map unpressed)
      ⟨timed 5 3, Config.standard, 0⟩).1.toOption.isSome := by
    decide +kernel
  obtain ⟨both, frames⟩ := timers_reach_delay_reads_only wf agree
  rcases e : Console.runFrames ([2, -1, 1].map unpressed) ⟨timed 5 3, Config.standard, 0⟩
    with ⟨f | results, c⟩
  · rw [e] at done
    cases done
  · obtain ⟨m', run, -, after⟩ := frames _ _ _ _ _ e unread'
    have total : ([2, -1, 1].map fun b : Int => max b 0).sum = 3 := by decide
    simp only [total] at run
    have same := (both [.event .step, .frame Config.standard (unpressed 2)]
      [.event (.setDelay 7), .event .step, .event .tick, .frame Config.standard (unpressed 2)]
      rfl unread).2.1
    exact ⟨wf, agree, same, results, c, m', rfl, run, after⟩

end Machine

end ChipEight
