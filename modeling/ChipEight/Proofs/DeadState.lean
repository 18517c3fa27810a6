/-
# What never matters again

Some of a machine's state no instruction looks at: the sound timer, the count
of instructions, and the slots of the stack from the pointer on. Two machines
that agree in all that is live answer every event alike and agree in all that
is live afterwards. The count and the sound timer are written and never read.
With the slots it hangs on where the pointer is, and the pointer moves: a slot
comes to life just when a call has written it, with the same address in both
machines, since both keep the list that the live slots stand for.

Key definitions: `Machine.Live`, `Machine.AgreeLive`, `Answer.bare`.
Key theorems: `Machine.agreeLive_of_liveStack`, `Machine.AgreeLive.of_move`,
`Machine.lockstep_live`, `Machine.dead_state_never_matters`.
-/
import ChipEight.Proofs.CallStack
import ChipEight.Proofs.Lockstep

namespace ChipEight

/-- An answer without the state that a frame shows. -/
def Answer.bare : Answer → Answer
  | .frame r => .count r.executed
  | a => a

namespace Machine

/-- The cells whose contents can matter later. -/
def Live {σ : Type} (m : Machine σ) : Cell → Prop
  | .sound | .count => False
  | .slot k => k.val < m.sp.val
  | _ => True

variable {σ τ : Type} [RandomSource σ] [RandomSource τ] {m : Machine σ} {n : Machine τ}

/-- The second machine agrees with the first in what is live there. -/
def AgreeLive (m : Machine σ) (n : Machine τ) : Prop := ∀ c, m.Live c → AgreeAt m n c

/-! ### Live slots -/

omit [RandomSource σ] in
theorem getElem?_liveStack {k : Fin 16} (live : k.val < m.sp.val) :
    m.liveStack[k.val]? = some (m.stack.get k) := by
  rw [liveStack, List.getElem?_take_of_lt live, Vector.getElem?_toList]
  exact Vector.getElem?_eq_getElem k.isLt

theorem AgreeLive.liveStack_eq (h : AgreeLive m n) : n.liveStack = m.liveStack := by
  have sp : n.sp = m.sp := h .sp trivial
  apply List.ext_getElem?
  intro k
  by_cases live : k < m.sp.val
  · have inside : k < 16 := by have := m.sp.isLt; omega
    have same : n.stack.get ⟨k, inside⟩ = m.stack.get ⟨k, inside⟩ := h (.slot ⟨k, inside⟩) live
    have inM := getElem?_liveStack (m := m) (k := ⟨k, inside⟩) live
    have inN := getElem?_liveStack (m := n) (k := ⟨k, inside⟩) (sp ▸ live)
    exact inN.trans ((congrArg some same).trans inM.symm)
  · rw [List.getElem?_eq_none (by rw [length_liveStack, sp]; omega),
      List.getElem?_eq_none (by rw [length_liveStack]; omega)]

/-- For the slots it is enough that both stand for the same list. -/
theorem agreeLive_of_liveStack
    (cells : ∀ c, m.Live c → (∀ k, c ≠ .slot k) → AgreeAt m n c)
    (stack : n.liveStack = m.liveStack) : AgreeLive m n := by
  intro c live
  cases c
  case slot k =>
    have live : k.val < m.sp.val := live
    have sp : n.sp = m.sp := cells .sp trivial (by simp)
    have same : n.liveStack[k.val]? = m.liveStack[k.val]? := by rw [stack]
    rw [getElem?_liveStack live, getElem?_liveStack (sp ▸ live)] at same
    exact Option.some.inj same
  all_goals exact cells _ live (by simp)

/-! ### Events -/

omit [RandomSource σ] in
/-- A step looks at nothing but what is live. -/
theorem live_of_stepReads {c : Cell} (read : m.StepReads c) : m.Live c := by
  by_contra dead
  revert read
  cases c
  case sound =>
    exact not_stepReads (by simp) (by simp) fun _ _ => Instruction.not_reads_sound
  case count =>
    exact not_stepReads (by simp) (by simp) fun _ _ => Instruction.not_reads_count
  case slot k =>
    refine not_stepReads (by simp) (by simp) fun _ _ read => dead ?_
    have last := (Instruction.reads_slot_iff.1 read).2
    exact Nat.lt_of_succ_le last.le
  all_goals exact absurd trivial dead

theorem AgreeLive.endAlike_step (h : AgreeLive m n) : EndAlike m n m.step n.step :=
  step_of_agree (fun c read => h c (live_of_stepReads read)) fun _ _ _ => h .random trivial 0

/-- What a step does to the stack is told by its outcome and by where it comes
from and goes to. -/
theorem stackMove_step_congr (outcome : n.step.1 = m.step.1) (origin : n.pc = m.pc)
    (target : n.step.2.pc = m.step.2.pc) : n.stackMove .step = m.stackMove .step := by
  rcases em : m.step with ⟨r, m'⟩
  rcases en : n.step with ⟨r', n'⟩
  rw [em, en] at outcome target
  obtain rfl : r' = r := outcome
  cases r' with
  | error f => simp only [stackMove, em, en]
  | ok i =>
    have target : n'.pc = m'.pc := target
    simp only [stackMove, em, en, origin, target]

theorem stackMove_congr {e : Event} (ne : e ≠ .step) : n.stackMove e = m.stackMove e := by
  cases e with
  | step => exact absurd rfl ne
  | _ => rfl

/-- An event that both machines do alike, with the same move of the stack,
leaves them in agreement; the slot that a call brings to life is in the move. -/
theorem AgreeLive.of_move {e : Event} (h : AgreeLive m n)
    (alike : EndAlike m n (e.perform m) (e.perform n)) (move : n.stackMove e = m.stackMove e) :
    AgreeLive (e.perform m).2 (e.perform n).2 := by
  refine agreeLive_of_liveStack (fun c live notSlot => alike.2 c (h c ?_)) ?_
  · cases c
    case slot k => exact absurd rfl (notSlot k)
    all_goals exact live
  · have moved := on?_stackMove e n
    rw [move, h.liveStack_eq, on?_stackMove e m] at moved
    exact (Option.some.inj moved).symm

theorem lockstep_live :
    Lockstep Answer.bare fun _ (m : Machine σ) (n : Machine τ) => AgreeLive m n where
  step h := by
    have alike := h.endAlike_step
    have move := stackMove_step_congr alike.1 (h .pc trivial) (alike.2 .pc (h .pc trivial))
    exact ⟨alike.1, h.of_move (e := .step) (alike.answering _) move⟩
  event e ne h := by
    have alike := perform_of_agree ne (h .keypad trivial)
    exact ⟨alike.1, h.of_move alike (stackMove_congr ne)⟩
  keys f h := by
    have alike := onKeypad_of_agree (h .keypad trivial) f
    exact ⟨alike.1, fun c live => alike.2 c (h c live)⟩
  frame count h := rfl

/-! ### Histories -/

omit [RandomSource σ] in
theorem map_bare_answering {α : Type} {f : α → Answer} (plain : ∀ a, (f a).bare = f a)
    (x : Attempt (Machine σ) α) : (x.answering f).1.map Answer.bare = (x.answering f).1 := by
  rcases x with ⟨_ | a, _⟩
  · rfl
  · exact congrArg Except.ok (plain a)

theorem map_bare_perform (e : Event) (m : Machine σ) :
    (e.perform m).1.map Answer.bare = (e.perform m).1 := by
  cases e with
  | step => exact map_bare_answering (fun _ => rfl) _
  | load | setKey => exact map_bare_answering (fun _ => rfl) _
  | releaseKeys | tick | setDelay | setSound | reset => rfl

/-- Nothing is lost in the answers to events. -/
theorem map_bare_answers : ∀ (es : List Event) (m : Machine σ),
    (m.answers (es.map .event)).map (Except.map Answer.bare) = m.answers (es.map .event)
  | [], _ => rfl
  | e :: es, m => by
    rw [List.map_cons, answers, List.map_cons, Call.perform, map_bare_perform, map_bare_answers es]

theorem AgreeLive.calls : ∀ (calls : List Call) {m : Machine σ} {n : Machine τ}, AgreeLive m n →
    (n.answers calls).map (Except.map Answer.bare) =
        (m.answers calls).map (Except.map Answer.bare) ∧
      AgreeLive (m.afterCalls calls) (n.afterCalls calls)
  | [], _, _, h => ⟨rfl, h⟩
  | c :: cs, m, n, h => by
    -- what lies ahead has no part in the relation
    obtain ⟨-, answer, after⟩ := @Lockstep.call _ _ _ _ _ _ lockstep_live c [] m n h
    obtain ⟨answers', after'⟩ := AgreeLive.calls cs after
    refine ⟨?_, after'⟩
    rw [answers, answers, List.map_cons, List.map_cons, answer, answers']

/-- **Dead state never matters.** Two machines with the same stack pointer that
agree in everything but the sound timer, the count of instructions and the slots
from the pointer on answer every event alike, and the same can be said of them
after it. Runs and frames are no different, but that a frame shows the whole
state, which includes the dead. -/
theorem dead_state_never_matters (agree : ∀ c, m.Live c → AgreeAt m n c) :
    (∀ es : List Event, n.answers (es.map .event) = m.answers (es.map .event)) ∧
    ∀ calls : List Call,
      (n.answers calls).map (Except.map Answer.bare) =
        (m.answers calls).map (Except.map Answer.bare) ∧
      (n.afterCalls calls).sp = (m.afterCalls calls).sp ∧
      ∀ c, (m.afterCalls calls).Live c → AgreeAt (m.afterCalls calls) (n.afterCalls calls) c := by
  have agree : AgreeLive m n := agree
  refine ⟨fun es => ?_, fun calls => ?_⟩
  · rw [← map_bare_answers es m, ← map_bare_answers es n]
    exact (agree.calls _).1
  · obtain ⟨same, after⟩ := agree.calls calls
    exact ⟨same, after .sp trivial, after⟩

/-- The machine before a call, on which much has been run already. -/
def worn : Machine Supply :=
  { calling with
    stack := .replicate 16 0x300
    timers := { sound := 9 }
    instructionCount := 1000 }

/-- It calls, goes on and returns like the new one, and finds its stack empty
when it is reset. -/
theorem worn_calls_and_returns :
    (∀ c, calling.Live c → AgreeAt calling worn c) ∧
      worn.answers ([.step, .tick, .step, .step, .reset, .setDelay 300, .step].map .event) =
        calling.answers ([.step, .tick, .step, .step, .reset, .setDelay 300, .step].map .event) ∧
      ∀ c, (calling.afterCalls [.event .step, .run 1]).Live c →
        AgreeAt (calling.afterCalls [.event .step, .run 1])
          (worn.afterCalls [.event .step, .run 1]) c := by
  have agree : ∀ c, calling.Live c → AgreeAt calling worn c := by
    intro c live
    cases c
    case sound | count => exact live.elim
    case slot k => exact absurd live (Nat.not_lt_zero k.val)
    case random => exact fun k => rfl
    all_goals rfl
  obtain ⟨answers, after⟩ := dead_state_never_matters agree
  exact ⟨agree, answers _, (after _).2.2⟩

end Machine

end ChipEight
