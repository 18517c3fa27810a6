/-
# Histories of a machine

What a host does to a machine, one event after the other, and what becomes of
the machine. An event that faults leaves the machine as the fault does, and
the host may go on from there. Runs and frames are calls that make several
events at once: whatever state they lead to, some events lead to it too.

Where a part of the machine is set by some events and only taken a step further
by the others, the last event that set it tells all of what came before.

Key definitions: `Event`, `Event.perform`, `Call`, `Call.perform`,
`Machine.after`, `Machine.afterCalls`, `Machine.answers`, `Machine.Reaches`,
`Machine.lastSet`.
Key theorems: `Machine.after_invariant`, `Machine.reaches_afterCalls`,
`Machine.part_after`.
-/
import ChipEight.Console
import Mathlib.Tactic.Common

namespace ChipEight

/-- What a host does to a machine at one go. -/
inductive Event where
  /-- Execute one instruction. -/
  | step
  /-- Load a program. -/
  | load (program : List UInt8)
  /-- Press or release the key that a value names. -/
  | setKey (index : Json) (pressed : Bool)
  /-- Release every key. -/
  | releaseKeys
  /-- Let both timers tick. -/
  | tick
  /-- Set the delay timer. -/
  | setDelay (v : Int)
  /-- Set the sound timer. -/
  | setSound (v : Int)
  | reset

/-- What a host may ask of a machine. -/
inductive Call where
  | event (e : Event)
  /-- Execute some instructions. -/
  | run (count : Int)
  /-- Drive a frame at a pace. -/
  | frame (pace : Config) (inputs : FrameInputs)

/-- What a call answers. -/
inductive Answer where
  | nothing
  | instruction (i : Instruction)
  | count (n : Int)
  | frame (r : FrameResult)
  deriving DecidableEq

/-- The attempt with its answer as one of those to calls. -/
def Attempt.answering {σ α : Type} (f : α → Answer) (x : Attempt σ α) : Attempt σ Answer :=
  (x.1.map f, x.2)

/-- What an attempt answers is nothing to what comes next if that does not ask. -/
theorem Attempt.answering_andThen {σ α β : Type} (f : α → Answer) (x : Attempt σ α)
    (next : σ → Attempt σ β) :
    (x.answering f).andThen (fun _ s => next s) = x.andThen fun _ s => next s := by
  rcases x with ⟨_ | a, s⟩ <;> rfl

section

variable {σ : Type} [RandomSource σ]

/-- The outcome of an event. -/
def Event.perform : Event → Machine σ → Attempt (Machine σ) Answer
  | .step, m => m.step.answering .instruction
  | .load program, m => (m.load program).answering fun _ => .nothing
  | .setKey index pressed, m => (m.setKey index pressed).answering fun _ => .nothing
  | .releaseKeys, m => .done .nothing { m with keypad := Keypad.released }
  | .tick, m => .done .nothing m.tickTimers
  | .setDelay v, m => .done .nothing (m.setDelay v)
  | .setSound v, m => .done .nothing (m.setSound v)
  | .reset, m => .done .nothing m.reset

/-- The outcome of a call. -/
def Call.perform : Call → Machine σ → Attempt (Machine σ) Answer
  | .event e, m => e.perform m
  | .run count, m => (m.run count).answering .count
  | .frame pace inputs, m =>
    let (r, c) := Console.runFrame inputs { machine := m, pace := pace }
    (r.map .frame, c.machine)

namespace Machine

/-- The machine after some events. -/
def after : List Event → Machine σ → Machine σ
  | [], m => m
  | e :: es, m => after es (e.perform m).2

/-- The machine after some calls. -/
def afterCalls : List Call → Machine σ → Machine σ
  | [], m => m
  | c :: cs, m => afterCalls cs (c.perform m).2

/-- What some calls answer, each with its answer or its fault. -/
def answers : List Call → Machine σ → List (Except Fault Answer)
  | [], _ => []
  | c :: cs, m => (c.perform m).1 :: answers cs (c.perform m).2

theorem after_append : ∀ (es fs : List Event) (m : Machine σ),
    m.after (es ++ fs) = (m.after es).after fs
  | [], _, _ => rfl
  | e :: es, fs, m => after_append es fs (e.perform m).2

/-- What every event keeps, every history keeps. -/
theorem after_invariant {P : Machine σ → Prop} (keeps : ∀ e m, P m → P (Event.perform e m).2) :
    ∀ (es : List Event) {m : Machine σ}, P m → P (m.after es)
  | [], _, h => h
  | e :: es, _, h => after_invariant keeps es (keeps e _ h)

theorem after_concat (es : List Event) (e : Event) (m : Machine σ) :
    m.after (es ++ [e]) = (e.perform (m.after es)).2 := after_append es [e] m

/-! ### The last event that sets something -/

/-- What the last event that sets something sets it to, and the events that come
after that one. -/
def lastSet {β : Type} (sets : Machine σ → Event → Option β) :
    List Event → Machine σ → Option (β × List Event)
  | [], _ => none
  | e :: es, m => lastSet sets es (e.perform m).2 <|> (sets m e).map (·, es)

theorem exists_of_lastSet {β : Type} {sets : Machine σ → Event → Option β} {b : β}
    {later : List Event} : ∀ {es : List Event} {m : Machine σ}, m.lastSet sets es = some (b, later) →
      ∃ front e, es = front ++ e :: later ∧ sets (m.after front) e = some b
  | [], _, h => by cases h
  | e :: es, m, h => by
    rw [lastSet, Option.orElse_eq_orElse, Option.orElse_eq_or, Option.or_eq_some_iff] at h
    rcases h with last | ⟨-, first⟩
    · obtain ⟨front, e', rfl, set⟩ := exists_of_lastSet last
      exact ⟨e :: front, e', rfl, set⟩
    · obtain ⟨b', set, same⟩ := Option.map_eq_some_iff.1 first
      cases same
      exact ⟨[], e, rfl, set⟩

/-- Where each event sets a part of the machine or takes it a step further, the
part is as far from where it was last set as the events since then take it. -/
theorem part_after {β : Type} (part : Machine σ → β) (further : β → Event → β)
    {P : Machine σ → Prop} {sets : Machine σ → Event → Option β}
    (keeps : ∀ e m, P m → P (Event.perform e m).2)
    (moves : ∀ e m, P m →
      part (Event.perform e m).2 = (sets m e).getD (further (part m) e)) :
    ∀ (es : List Event) {m : Machine σ}, P m →
      part (m.after es) =
        match m.lastSet sets es with
        | some (b, later) => later.foldl further b
        | none => es.foldl further (part m)
  | [], _, _ => rfl
  | e :: es, m, h => by
    have rest := part_after part further keeps moves es (keeps e m h)
    rw [after, lastSet, rest]
    cases (e.perform m).2.lastSet sets es with
    | some => rfl
    | none =>
      rw [moves e m h]
      cases sets m e with
      | some => rfl
      | none => rfl

/-! ### Calls as events -/

/-- Some events lead from one machine to the other. -/
def Reaches (m m' : Machine σ) : Prop := ∃ es, m.after es = m'

theorem Reaches.refl (m : Machine σ) : m.Reaches m := ⟨[], rfl⟩

theorem Reaches.trans {m m' m'' : Machine σ} (h : m.Reaches m') (h' : m'.Reaches m'') :
    m.Reaches m'' := by
  obtain ⟨es, rfl⟩ := h
  obtain ⟨fs, rfl⟩ := h'
  exact ⟨es ++ fs, after_append es fs m⟩

theorem reaches_perform (e : Event) (m : Machine σ) : m.Reaches (e.perform m).2 := ⟨[e], rfl⟩

/-- Two operations lead nowhere if neither does. -/
theorem Reaches.andThen {α β : Type} {m : Machine σ} {x : Attempt (Machine σ) α}
    {next : α → Machine σ → Attempt (Machine σ) β} (first : m.Reaches x.2)
    (rest : ∀ (a : α) (m' : Machine σ), m'.Reaches (next a m').2) :
    m.Reaches (x.andThen next).2 := by
  rcases x with ⟨_ | a, m'⟩
  · exact first
  · exact first.trans (rest a m')

theorem reaches_steps : ∀ (k : Nat) (m : Machine σ), m.Reaches (m.steps k).2
  | 0, m => .refl m
  | k + 1, m => by
    have first : m.Reaches m.step.2 := reaches_perform .step m
    exact first.andThen fun _ m' => reaches_steps k m'

theorem reaches_run (count : Int) (m : Machine σ) : m.Reaches (m.run count).2 :=
  (reaches_steps count.toNat m).andThen fun _ m' => .refl m'

theorem reaches_setKeys (v : Bool) : ∀ (ks : List Json) (m : Machine σ),
    m.Reaches (m.onKeypad (Keypad.setKeys v ks)).2
  | [], m => .refl m
  | k :: ks, m => by
    have first : m.Reaches (m.onKeypad (Keypad.setKey k v)).2 := reaches_perform (.setKey k v) m
    show m.Reaches (m.onKeypad fun p => (p.setKey k v).andThen fun _ p => p.setKeys v ks).2
    rw [onKeypad_andThen]
    exact first.andThen fun _ m' => reaches_setKeys v ks m'

theorem reaches_apply (press release : List Json) (m : Machine σ) :
    m.Reaches (m.onKeypad (Keypad.apply press release)).2 := by
  show m.Reaches (m.onKeypad fun p => (p.setKeys false release).andThen fun _ p =>
    p.setKeys true press).2
  rw [onKeypad_andThen]
  exact (reaches_setKeys false release m).andThen fun _ m' => reaches_setKeys true press m'

theorem reaches_applyKeys (inputs : FrameInputs) (m : Machine σ) :
    m.Reaches (m.onKeypad (Console.applyKeys inputs)).2 := by
  unfold Console.applyKeys
  cases inputs.releaseAll with
  | false => exact reaches_apply inputs.press inputs.release m
  | true =>
    have first : m.Reaches { m with keypad := Keypad.released } := reaches_perform .releaseKeys m
    exact first.trans (reaches_apply inputs.press inputs.release _)

theorem reaches_runMachine (inputs : FrameInputs) (pace : Config) (m : Machine σ) :
    m.Reaches (Console.runMachine inputs pace m).2 := by
  refine (reaches_applyKeys inputs m).andThen fun _ m' => ?_
  cases Console.budget inputs pace with
  | error fault => exact .refl m'
  | ok n => exact reaches_run n m'

theorem perform_frame (pace : Config) (inputs : FrameInputs) (m : Machine σ) :
    (Call.frame pace inputs).perform m =
      (Console.runMachine inputs pace m).andThen fun count m =>
        .done (.frame ⟨count, m.tickTimers.soundActive, m.tickTimers.snapshot⟩) m.tickTimers := by
  simp only [Call.perform, Console.runFrame, Console.onMachine]
  rcases Console.runMachine inputs pace m with ⟨_ | _, m'⟩
  · rfl
  · rfl

/-- **A call leads nowhere that events do not lead.** -/
theorem reaches_call (c : Call) (m : Machine σ) : m.Reaches (c.perform m).2 := by
  cases c with
  | event e => exact reaches_perform e m
  | run count => exact reaches_run count m
  | frame pace inputs =>
    rw [perform_frame]
    exact (reaches_runMachine inputs pace m).andThen fun _ m' => reaches_perform .tick m'

theorem reaches_afterCalls : ∀ (cs : List Call) (m : Machine σ), m.Reaches (m.afterCalls cs)
  | [], m => .refl m
  | c :: cs, m => (reaches_call c m).trans (reaches_afterCalls cs _)

end Machine

end

end ChipEight
