/-
# The stack as a list of return addresses

Slots and stack pointer stand for a list (`Machine.liveStack`), the slots below
the pointer, of at most sixteen return addresses of which the last goes first.
What a slot above the pointer holds is never seen again: a call writes over it
before a return can come to it.

What an event does to the list is read off its answer (`Machine.stackMove`),
and a list that holds to the rules of pushing and popping (`StackMove.on?`)
then follows the machine through every history. Where a call leaves the list
longer by one, that entry and those below it stay for as long as the pointer
does not come back, so the step that brings it back is the return to behind
the call.

Key definitions: `Machine.liveStack`, `StackMove`, `StackMove.on?`,
`Machine.stackMove`, `Machine.stackMoves`.
Key theorems: `Machine.on?_stackMove`, `Machine.foldlM_stackMoves`,
`Machine.stack_refines_lifo`.
-/
import ChipEight.Proofs.History
import ChipEight.Proofs.Stepping
import ChipEight.Proofs.WriteSet
import ChipEight.Random.Supply
import Mathlib.Data.List.Infix

namespace ChipEight

/-- What can become of a list of return addresses. -/
inductive StackMove where
  /-- An address is put at the end. -/
  | push (a : Int)
  /-- The last address, which is `a`, is taken away. -/
  | pop (a : Int)
  | keep
  | clear

namespace StackMove

/-- The list after a move; a full list takes no address, and no address is
taken but the last. -/
def on? : StackMove → List Int → Option (List Int)
  | push a, l => if l.length < 16 then some (l ++ [a]) else none
  | pop a, l => if l.getLast? = some a then some l.dropLast else none
  | keep, l => some l
  | clear, _ => some []

variable {mv : StackMove} {l s s' : List Int} {a : Int}

theorem on?_pop : (pop a).on? s = some s' ↔ s = s' ++ [a] := by
  rw [on?, Option.ite_none_right_eq_some, Option.some.injEq]
  constructor
  · rintro ⟨last, rfl⟩
    obtain ⟨t, rfl⟩ := List.getLast?_eq_some_iff.1 last
    rw [List.dropLast_concat]
  · rintro rfl
    exact ⟨List.getLast?_concat, List.dropLast_concat⟩

/-- A move leaves the beginning of a list alone, unless it takes its last entry. -/
theorem prefix_on? (h : mv.on? s = some s') (ne : mv ≠ clear) (below : l <+: s)
    (keeps : s'.length + 1 ≠ l.length) : l <+: s' := by
  cases mv with
  | push a =>
    rw [on?, Option.ite_none_right_eq_some, Option.some.injEq] at h
    rw [← h.2]
    exact below.trans (List.prefix_append s [a])
  | pop a =>
    obtain rfl := on?_pop.1 h
    have long := below.length_le
    rw [List.length_append, List.length_singleton] at long
    exact List.prefix_of_prefix_length_le below (List.prefix_append s' [a]) (by omega)
  | keep =>
    obtain rfl := Option.some.inj h
    exact below
  | clear => exact absurd rfl ne

/-- The move that takes the last entry of the beginning of a list pops it. -/
theorem eq_pop_of_prefix (h : mv.on? s = some s') (ne : mv ≠ clear) (below : l ++ [a] <+: s)
    (taken : s'.length = l.length) : mv = pop a ∧ s' = l := by
  have long := below.length_le
  rw [List.length_append, List.length_singleton] at long
  cases mv with
  | push b =>
    rw [on?, Option.ite_none_right_eq_some, Option.some.injEq] at h
    rw [← h.2, List.length_append] at taken
    omega
  | pop b =>
    obtain rfl := on?_pop.1 h
    have whole : l ++ [a] = s' ++ [b] := below.eq_of_length (by simp [taken])
    obtain ⟨rfl, rfl⟩ := List.append_singleton_inj.1 whole
    exact ⟨rfl, rfl⟩
  | keep =>
    obtain rfl := Option.some.inj h
    omega
  | clear => exact absurd rfl ne

end StackMove

namespace Machine

variable {σ : Type} {m m' : Machine σ} {i : Instruction}

/-! ### The list that the slots stand for -/

/-- The return addresses in use, the oldest first. -/
def liveStack (m : Machine σ) : List Int := m.stack.toList.take m.sp.val

theorem length_liveStack (m : Machine σ) : m.liveStack.length = m.sp.val := by
  have := m.sp.isLt
  rw [liveStack, List.length_take, Vector.length_toList]
  omega

theorem liveStack_eq_nil_iff : m.liveStack = [] ↔ m.sp.val = 0 := by
  rw [← List.length_eq_zero_iff, length_liveStack]

theorem liveStack_congr (slots : m'.stack = m.stack) (pointer : m'.sp = m.sp) :
    m'.liveStack = m.liveStack := by
  rw [liveStack, liveStack, slots, pointer]

/-- One slot more. -/
theorem take_succ_slots (slots : Vector Int 16) (top : Fin 16) :
    slots.toList.take (top.val + 1) = slots.toList.take top.val ++ [slots.get top] := by
  have last : slots.toList[top.val]? = some (slots.get top) := by
    rw [Vector.getElem?_toList]
    exact Vector.getElem?_eq_getElem top.isLt
  rw [List.take_add_one, last, Option.toList_some]

theorem liveStack_call (top : Fin 16) (h : m.sp.val = top.val) (target : Int) :
    (m.call target).2.liveStack = m.liveStack ++ [m.pc] := by
  rw [call_of_room top h]
  calc
    (m.stack.set top.val m.pc top.isLt).toList.take (top.val + 1)
      = (m.stack.set top.val m.pc top.isLt).toList.take top.val ++ [m.pc] := by
        have last := get_stack_call top h target top
        rw [call_of_room top h, if_pos rfl] at last
        rw [take_succ_slots, last]
    _ = m.liveStack ++ [m.pc] := by
        rw [Vector.toList_set, List.take_set_of_le (Nat.le_refl _), liveStack, h]

theorem liveStack_ret {top : Fin 16} (h : m.sp.val = top.val + 1) :
    m.liveStack = m.ret.2.liveStack ++ [m.ret.2.pc] := by
  rw [ret_of_live h, liveStack, h]
  exact take_succ_slots m.stack top

variable [RandomSource σ]

/-! ### One step -/

/-- A call is made if there is room for one more address, which is then the
last; where there is none it faults. -/
theorem step_of_call (here : m.Next i) (op : i.opcode = .call) :
    (m.liveStack.length < 16 ∧ ∃ m', m.step = .done i m' ∧
      m'.liveStack = m.liveStack ++ [m.pc + 2] ∧ m'.pc = i.nnn.val) ∨
    (¬m.liveStack.length < 16 ∧ m.step = .fail .stackOverflow m.past) := by
  rw [length_liveStack]
  by_cases room : m.sp.val < 16
  · have done := call_of_room (m := m.past) ⟨m.sp.val, room⟩ rfl i.nnn.val
    refine .inl ⟨room, (m.past.call i.nnn.val).2.counted, ?_, ?_, ?_⟩
    · rw [step_of_next here, execute_of_call op, done, Attempt.andThen_done]
    · exact liveStack_call (m := m.past) ⟨m.sp.val, room⟩ rfl i.nnn.val
    · rw [done]
      rfl
  · have full : m.sp.val = 16 := by have := m.sp.isLt; omega
    exact .inr ⟨room, step_of_refused here (refusal?_of_full op full)⟩

/-- A return is made if there is an address, of which it takes the last. -/
theorem step_of_ret (here : m.Next i) (op : i.opcode = .ret) :
    (m.liveStack ≠ [] ∧ ∃ m', m.step = .done i m' ∧ m.liveStack = m'.liveStack ++ [m'.pc]) ∨
    (m.liveStack = [] ∧ m.step = .fail .stackUnderflow m.past) := by
  rw [Ne, liveStack_eq_nil_iff]
  by_cases empty : m.sp.val = 0
  · exact .inr ⟨empty, step_of_refused here (refusal?_of_empty op empty)⟩
  · obtain ⟨top, h⟩ := exists_top empty
    refine .inl ⟨empty, m.past.ret.2.counted, ?_, liveStack_ret (m := m.past) h⟩
    rw [step_of_next here, execute_of_ret op, ret_of_live (m := m.past) h, Attempt.andThen_done]

theorem liveStack_step_of_next (here : m.Next i) :
    m.step.2.liveStack = (execute i m.past).2.liveStack := by
  rw [step_of_next here]
  rcases execute i m.past with ⟨_ | _, m'⟩
  · rfl
  · rfl

/-- A step that makes no call and no return leaves the addresses alone, and so
does one that faults. -/
theorem liveStack_step_of_other
    (other : ∀ i m', m.step = .done i m' → i.opcode ≠ .call ∧ i.opcode ≠ .ret) :
    m.step.2.liveStack = m.liveStack := by
  rcases m.fetch_cases with outside | ⟨w, here, unfit⟩ | ⟨i, here⟩
  · rw [step_of_fetch_outside outside]
  · rw [step_of_no_opcode here unfit]
    rfl
  · by_cases hc : i.opcode = .call
    · rcases step_of_call here hc with ⟨-, m', e, -⟩ | ⟨-, e⟩
      · exact absurd hc (other i m' e).1
      · rw [e]
        rfl
    by_cases hr : i.opcode = .ret
    · rcases step_of_ret here hr with ⟨-, m', e, -⟩ | ⟨-, e⟩
      · exact absurd hr (other i m' e).2
      · rw [e]
        rfl
    · rw [liveStack_step_of_next here]
      exact liveStack_congr (m := m.past) (stack_execute hc) (sp_execute hc hr)

/-! ### Histories -/

/-- What an event does to the return addresses, read off its answer. -/
def stackMove (m : Machine σ) : Event → StackMove
  | .step =>
    match m.step with
    | (.ok i, m') =>
      match i.opcode with
      | .call => .push (m.pc + 2)
      | .ret => .pop m'.pc
      | _ => .keep
    | (.error _, _) => .keep
  | .reset => .clear
  | _ => .keep

/-- What some events do to them. -/
def stackMoves : List Event → Machine σ → List StackMove
  | [], _ => []
  | e :: es, m => m.stackMove e :: stackMoves es (e.perform m).2

theorem stackMove_of_call (h : m.step = .done i m') (op : i.opcode = .call) :
    m.stackMove .step = .push (m.pc + 2) := by
  simp only [stackMove, h, op]

theorem stackMove_of_ret (h : m.step = .done i m') (op : i.opcode = .ret) :
    m.stackMove .step = .pop m'.pc := by
  simp only [stackMove, h, op]

/-- An event that is no reset, no call and no return keeps the addresses. -/
theorem stackMove_of_other {e : Event} (ne : e ≠ .reset)
    (other : ∀ i m', e = .step → m.step = .done i m' → i.opcode ≠ .call ∧ i.opcode ≠ .ret) :
    m.stackMove e = .keep ∧ (e.perform m).2.liveStack = m.liveStack := by
  cases e with
  | step =>
    refine ⟨?_, liveStack_step_of_other fun i m' => other i m' rfl⟩
    rcases e : m.step with ⟨_ | i, m'⟩
    · simp only [stackMove, e]
    · obtain ⟨hc, hr⟩ := other i m' rfl e
      simp only [stackMove, e]
  | reset => exact absurd rfl ne
  | load program =>
    refine ⟨rfl, ?_⟩
    simp only [Event.perform, load]
    split <;> rfl
  | setKey | releaseKeys | tick | setDelay | setSound => exact ⟨rfl, rfl⟩

theorem on?_stackMove_of_call (h : m.step = .done i m') (op : i.opcode = .call) :
    (m.stackMove .step).on? m.liveStack = some m'.liveStack := by
  rcases step_of_call (of_step_done h).1 op with ⟨room, m'', h', live, -⟩ | ⟨-, h'⟩
  · obtain rfl : m' = m'' := by rw [h] at h'; exact congrArg Prod.snd h'
    rw [stackMove_of_call h op, StackMove.on?, if_pos room, live]
  · rw [h] at h'
    cases h'

theorem on?_stackMove_of_ret (h : m.step = .done i m') (op : i.opcode = .ret) :
    (m.stackMove .step).on? m.liveStack = some m'.liveStack := by
  rcases step_of_ret (of_step_done h).1 op with ⟨-, m'', h', live⟩ | ⟨-, h'⟩
  · obtain rfl : m' = m'' := by rw [h] at h'; exact congrArg Prod.snd h'
    rw [stackMove_of_ret h op]
    exact StackMove.on?_pop.2 live
  · rw [h] at h'
    cases h'

/-- The slots follow the list, whatever happens. -/
theorem on?_stackMove (e : Event) (m : Machine σ) :
    (m.stackMove e).on? m.liveStack = some (e.perform m).2.liveStack := by
  by_cases isReset : e = .reset
  · subst isReset
    rfl
  by_cases other : ∀ i m', e = .step → m.step = .done i m' → i.opcode ≠ .call ∧ i.opcode ≠ .ret
  · obtain ⟨kept, same⟩ := stackMove_of_other isReset other
    rw [kept, same]
    rfl
  · push Not at other
    obtain ⟨i, m', rfl, h, op⟩ := other
    show _ = some m.step.2.liveStack
    rw [h]
    by_cases hc : i.opcode = .call
    · exact on?_stackMove_of_call h hc
    · exact on?_stackMove_of_ret h (op hc)

/-- A list that makes the moves is what the slots stand for in the end. -/
theorem foldlM_stackMoves : ∀ (es : List Event) (m : Machine σ),
    (m.stackMoves es).foldlM (fun l mv => mv.on? l) m.liveStack = some (m.after es).liveStack
  | [], _ => rfl
  | e :: es, m => by
    rw [stackMoves, List.foldlM_cons, on?_stackMove]
    exact foldlM_stackMoves es (e.perform m).2

/-! ### From a call to its return -/

theorem stackMove_ne_clear {e : Event} (ne : e ≠ .reset) (m : Machine σ) :
    m.stackMove e ≠ .clear := by
  cases e with
  | reset => exact absurd rfl ne
  | step =>
    simp only [stackMove]
    split
    · split <;> simp
    · simp
  | load | setKey | releaseKeys | tick | setDelay | setSound => simp [stackMove]

/-- Where the stack pointer is never where the entries `l` would be without
their last, all of them stay. -/
theorem prefix_after {l : List Int} : ∀ (es : List Event) (m : Machine σ),
    (∀ e ∈ es, e ≠ .reset) → l <+: m.liveStack →
      (∀ pre, pre <+: es → (m.after pre).sp.val + 1 ≠ l.length) → l <+: (m.after es).liveStack
  | [], _, _, below, _ => below
  | e :: es, m, ne, below, keeps => by
    have first : l <+: (e.perform m).2.liveStack := by
      refine StackMove.prefix_on? (on?_stackMove e m)
        (stackMove_ne_clear (ne e List.mem_cons_self) m) below ?_
      rw [length_liveStack]
      exact keeps [e] (List.prefix_append [e] es)
    refine prefix_after es (e.perform m).2 (fun e' he => ne e' (List.mem_cons_of_mem e he)) first ?_
    intro pre hpre
    exact keeps (e :: pre) (List.cons_prefix_cons.2 ⟨rfl, hpre⟩)

/-- A step that pops goes where the address says. -/
theorem pc_of_stackMove_pop {a : Int} (h : m.stackMove .step = .pop a) : m.step.2.pc = a := by
  simp only [stackMove] at h
  split at h
  · rename_i e
    split at h
    · cases h
    · rw [e]
      exact StackMove.pop.inj h
    · cases h
  · cases h

/-- From a call on, the first step that brings the stack pointer back goes on
behind the call, and all that was below is there again. -/
theorem returns_behind_call {m₁ : Machine σ} (h : m.step = .done i m₁) (op : i.opcode = .call)
    {es : List Event} (ne : ∀ e ∈ es, e ≠ .reset)
    (away : ∀ pre, pre <+: es → (m₁.after pre).sp ≠ m.sp)
    (back : (m₁.after es).step.2.sp = m.sp) :
    (m₁.after es).step.2.pc = m.pc + 2 ∧ (m₁.after es).step.2.liveStack = m.liveStack := by
  have live : m₁.liveStack = m.liveStack ++ [m.pc + 2] := by
    have e := on?_stackMove_of_call h op
    rw [stackMove_of_call h op, StackMove.on?, Option.ite_none_right_eq_some] at e
    exact (Option.some.inj e.2).symm
  -- the return address and what is below it stay until the last step
  have below : m.liveStack ++ [m.pc + 2] <+: (m₁.after es).liveStack := by
    refine prefix_after es m₁ ne (by rw [live]) fun pre hpre here => away pre hpre ?_
    rw [List.length_append, length_liveStack, List.length_singleton] at here
    exact Fin.ext (by omega)
  have taken : (m₁.after es).step.2.liveStack.length = m.liveStack.length := by
    rw [length_liveStack, length_liveStack, back]
  obtain ⟨popped, same⟩ := StackMove.eq_pop_of_prefix (on?_stackMove .step _)
    (stackMove_ne_clear (by simp) _) below taken
  exact ⟨pc_of_stackMove_pop popped, same⟩

/-- **The stack is a list of at most sixteen return addresses, the last of which
goes first.** Calls and returns are possible just when the list has room or an
entry and are the only events that touch it, a reset apart; it follows every
history; and what a call put on it is what the pertaining return goes to,
however many calls and returns there are between them. -/
theorem stack_refines_lifo (m : Machine σ) :
    (∀ i, m.Next i → i.opcode = .call →
      ((∃ m', m.step = .done i m') ↔ m.liveStack.length < 16) ∧
      ∀ m', m.step = .done i m' →
        m'.liveStack = m.liveStack ++ [m.pc + 2] ∧ m'.pc = i.nnn.val) ∧
    (∀ i, m.Next i → i.opcode = .ret →
      ((∃ m', m.step = .done i m') ↔ m.liveStack ≠ []) ∧
      ∀ m', m.step = .done i m' → m.liveStack = m'.liveStack ++ [m'.pc]) ∧
    (∀ e : Event, e ≠ .reset →
      (∀ i m', e = .step → m.step = .done i m' → i.opcode ≠ .call ∧ i.opcode ≠ .ret) →
      (e.perform m).2.liveStack = m.liveStack) ∧
    (∀ es : List Event, (m.stackMoves es).foldlM (fun l mv => mv.on? l) m.liveStack =
      some (m.after es).liveStack) ∧
    ∀ (i : Instruction) (m₁ : Machine σ) (es : List Event),
      m.step = .done i m₁ → i.opcode = .call → (∀ e ∈ es, e ≠ .reset) →
      (∀ pre, pre <+: es → (m₁.after pre).sp ≠ m.sp) → (m₁.after es).step.2.sp = m.sp →
      (m₁.after es).step.2.pc = m.pc + 2 ∧ (m₁.after es).step.2.liveStack = m.liveStack := by
  refine ⟨fun i here op => ?_, fun i here op => ?_, fun e ne other => ?_,
    fun es => foldlM_stackMoves es m, fun i m₁ es h op ne away back => ?_⟩
  · rcases step_of_call here op with ⟨room, m', h, live⟩ | ⟨full, h⟩
    · refine ⟨⟨fun _ => room, fun _ => ⟨m', h⟩⟩, fun m'' h' => ?_⟩
      rw [h] at h'
      cases h'
      exact live
    · simp [h, full]
  · rcases step_of_ret here op with ⟨live, m', h, popped⟩ | ⟨empty, h⟩
    · refine ⟨⟨fun _ => live, fun _ => ⟨m', h⟩⟩, fun m'' h' => ?_⟩
      rw [h] at h'
      cases h'
      exact popped
    · simp [h, empty]
  · exact (stackMove_of_other ne other).2
  · exact returns_behind_call h op ne away back

/-- A machine just before a call to a subroutine that sets `V0` and returns. -/
def calling : Machine Supply :=
  { powerOn Config.standard (.constant 0xAB) with
    memory := Memory.overlay 0x200 [0x22, 0x04, 0, 0, 0x60, 0x07, 0x00, 0xEE] (.replicate 4096 0) }

theorem calling_returns :
    calling.step = .done ⟨0x2204, .call⟩ calling.step.2 ∧
      (∀ pre, pre <+: [.step, .tick] → (calling.step.2.after pre).sp ≠ calling.sp) ∧
      (calling.step.2.after [.step, .tick]).step.2.sp = calling.sp ∧
      (calling.step.2.after [.step, .tick]).step.2.pc = 0x202 := by
  have call : calling.step = .done ⟨0x2204, .call⟩ calling.step.2 :=
    step_eq_done (by decide +kernel)
  have away : ∀ pre, pre <+: [.step, .tick] → (calling.step.2.after pre).sp ≠ calling.sp := by
    intro pre hpre
    have mem : pre ∈ [[], [.step], [.step, .tick]] := (List.mem_inits pre [.step, .tick]).2 hpre
    simp only [List.mem_cons, List.not_mem_nil, or_false] at mem
    rcases mem with rfl | rfl | rfl <;> decide +kernel
  have back : (calling.step.2.after [.step, .tick]).step.2.sp = calling.sp := by decide +kernel
  exact ⟨call, away, back,
    ((stack_refines_lifo calling).2.2.2.2 _ _ _ call rfl (by simp) away back).1⟩

end Machine

end ChipEight
