/-
# Frames over a history

A frame is a list of events, which its machine performs up to the first that
faults: its keys one by one, the instructions of its batch, and a tick in the
end. So a frame that faults makes no tick, and one that completes makes one.
Over any history of frames, alone and in lists, the console counts the frames
that completed, and those are as many as the ticks that it made.

Key definitions: `FrameInputs.plan`, `Machine.carryOut`, `Machine.performed`,
`Drive`, `Console.Accounts`, `Console.eventsOf`, `Console.completedOf`.
Key theorems: `Machine.after_performed`, `Console.runMachine_eq_carryOut`,
`Console.accounts_of_frame_done`, `Console.accounts_of_frame_fail`,
`Console.accounts_runFrames`, `Console.frames_count_ticks_and_stop`.
-/
import ChipEight.Proofs.Frames

namespace ChipEight

/-- Whether an event is a tick. -/
def Event.isTick : Event → Bool
  | .tick => true
  | _ => false

namespace FrameInputs

/-- The events by which a frame sets its keys. -/
def keyEvents (inputs : FrameInputs) : List Event :=
  (if inputs.releaseAll then [.releaseKeys] else []) ++
    (inputs.release.map fun v => .setKey v false) ++ inputs.press.map fun v => .setKey v true

/-- The events of a frame before its tick, when its batch has this size. -/
def work (inputs : FrameInputs) (size : Int) : List Event :=
  inputs.keyEvents ++ List.replicate size.toNat .step

/-- The events of a frame. Without a size of its batch there are but its keys. -/
def plan (inputs : FrameInputs) (pace : Config) : List Event :=
  match Console.budget inputs pace with
  | .ok size => inputs.work size ++ [.tick]
  | .error _ => inputs.keyEvents

theorem not_isTick_of_mem_keyEvents {inputs : FrameInputs} {e : Event} (h : e ∈ inputs.keyEvents) :
    e.isTick = false := by
  simp only [keyEvents, List.mem_append, List.mem_map] at h
  rcases h with (h | ⟨v, -, rfl⟩) | ⟨v, -, rfl⟩
  · split_ifs at h
    · obtain rfl := List.mem_singleton.1 h
      rfl
    · cases h
  · rfl
  · rfl

theorem not_isTick_of_mem_work {inputs : FrameInputs} {size : Int} {e : Event}
    (h : e ∈ inputs.work size) : e.isTick = false := by
  rcases List.mem_append.1 h with h | h
  · exact not_isTick_of_mem_keyEvents h
  · rw [List.eq_of_mem_replicate h]
    rfl

end FrameInputs

namespace Machine

variable {σ : Type} [RandomSource σ]

/-! ### Events up to a fault -/

/-- Perform events one after the other, up to the first that faults. -/
def carryOut : List Event → Machine σ → Attempt (Machine σ) Unit
  | [], m => .done () m
  | e :: es, m => (e.perform m).andThen fun _ m => carryOut es m

/-- The events that are performed then, with the one that faults. -/
def performed : List Event → Machine σ → List Event
  | [], _ => []
  | e :: es, m => e ::
    match e.perform m with
    | (.ok _, m') => performed es m'
    | (.error _, _) => []

theorem carryOut_append : ∀ (es fs : List Event) (m : Machine σ),
    m.carryOut (es ++ fs) = (m.carryOut es).andThen fun _ m => m.carryOut fs
  | [], _, _ => rfl
  | e :: es, fs, m => by
    simp only [List.cons_append, carryOut, Attempt.andThen_assoc, carryOut_append es fs]

/-- What is performed leads to where the events are left off. -/
theorem after_performed : ∀ (es : List Event) (m : Machine σ),
    m.after (m.performed es) = (m.carryOut es).2
  | [], _ => rfl
  | e :: es, m => by
    rw [performed, after, carryOut]
    rcases e.perform m with ⟨_ | a, m'⟩
    · rfl
    · exact after_performed es m'

theorem performed_sublist : ∀ (es : List Event) (m : Machine σ), (m.performed es).Sublist es
  | [], _ => .slnil
  | e :: es, m => by
    rw [performed]
    rcases e.perform m with ⟨_ | a, m'⟩
    · exact (List.nil_sublist es).cons_cons e
    · exact (performed_sublist es m').cons_cons e

theorem performed_append_of_done : ∀ {es : List Event} {m m' : Machine σ},
    m.carryOut es = .done () m' → ∀ fs, m.performed (es ++ fs) = es ++ m'.performed fs
  | [], m, m', h, fs => by
    obtain rfl : m = m' := congrArg Prod.snd h
    rfl
  | e :: es, m, m', h, fs => by
    obtain ⟨a, m₁, first, rest⟩ := Attempt.andThen_eq_done_iff.1 h
    simp only [List.cons_append, performed, first, performed_append_of_done rest fs]

theorem performed_append_of_fail {f : Fault} : ∀ {es : List Event} {m m' : Machine σ},
    m.carryOut es = .fail f m' → ∀ fs, m.performed (es ++ fs) = m.performed es
  | [], m, m', h, fs => by cases h
  | e :: es, m, m', h, fs => by
    rcases Attempt.andThen_eq_fail_iff.1 h with fault | ⟨a, m₁, first, rest⟩
    · simp only [List.cons_append, performed, fault]
    · simp only [List.cons_append, performed, first, performed_append_of_fail rest fs]

/-! ### The events of a frame -/

theorem carryOut_setKeys (v : Bool) : ∀ (vs : List Json) (m : Machine σ),
    m.carryOut (vs.map fun w => .setKey w v) = m.onKeypad (Keypad.setKeys v vs)
  | [], _ => rfl
  | w :: vs, m => by
    simp only [List.map_cons, carryOut, Event.perform, Attempt.answering_andThen, setKey,
      carryOut_setKeys v vs]
    exact (onKeypad_andThen ..).symm

theorem carryOut_keyEvents (inputs : FrameInputs) (m : Machine σ) :
    m.carryOut inputs.keyEvents = m.onKeypad (Console.applyKeys inputs) := by
  have apply (m : Machine σ) : m.carryOut ((inputs.release.map fun v => .setKey v false) ++
      inputs.press.map fun v => .setKey v true) =
      m.onKeypad (Keypad.apply inputs.press inputs.release) := by
    simp only [carryOut_append, carryOut_setKeys]
    exact (onKeypad_andThen ..).symm
  rw [FrameInputs.keyEvents, List.append_assoc, carryOut_append]
  unfold Console.applyKeys
  cases inputs.releaseAll with
  | false => exact apply m
  | true => exact apply { m with keypad := Keypad.released }

theorem carryOut_steps : ∀ (k : Nat) (m : Machine σ),
    m.carryOut (List.replicate k .step) = m.steps k
  | 0, _ => rfl
  | k + 1, m => by
    simp only [List.replicate_succ, carryOut, Event.perform, Attempt.answering_andThen,
      carryOut_steps k, steps]

end Machine

namespace Console

open Machine

variable {σ : Type} [RandomSource σ] {m : Machine σ} {c c' : Console σ} {inputs : FrameInputs}
  {f : Fault}

/-- A frame performs its events, up to its tick. -/
theorem runMachine_eq_carryOut {pace : Config} {size : Int}
    (sized : budget inputs pace = .ok size) :
    runMachine inputs pace m =
      (m.carryOut (inputs.work size)).andThen fun _ m => .done (max size 0) m := by
  rw [FrameInputs.work, carryOut_append, carryOut_keyEvents, Attempt.andThen_assoc]
  simp only [runMachine, sized, carryOut_steps]
  rfl

/-! ### Accounts -/

/-- From one state of a console to another its machine performed these events,
and this many frames were counted, with a tick for each. -/
structure Accounts (c c' : Console σ) (es : List Event) (completed : Nat) : Prop where
  machine : c'.machine = c.machine.after es
  ticks : es.countP Event.isTick = completed
  frames : c'.frameCount = c.frameCount + completed

theorem Accounts.refl (c : Console σ) : c.Accounts c [] 0 := ⟨rfl, rfl, rfl⟩

theorem Accounts.trans {c₁ : Console σ} {es fs : List Event} {j k : Nat} (h : c.Accounts c₁ es j)
    (h' : c₁.Accounts c' fs k) : c.Accounts c' (es ++ fs) (j + k) where
  machine := by rw [h'.machine, h.machine, after_append]
  ticks := by rw [List.countP_append, h.ticks, h'.ticks]
  frames := by rw [h'.frames, h.frames, Nat.add_assoc]

/-- The events that a frame performs. -/
def frameEvents (inputs : FrameInputs) (c : Console σ) : List Event :=
  c.machine.performed (inputs.plan c.pace)

/-- A frame that completes performs all its events, with the tick. -/
theorem accounts_of_frame_done {result : FrameResult} (h : c.runFrame inputs = .done result c') :
    c.Accounts c' (c.frameEvents inputs) 1 := by
  obtain ⟨n, m, ran, -, rfl⟩ := runFrame_eq_done_iff.1 h
  cases sized : budget inputs c.pace with
  | error g =>
    obtain ⟨-, m₁, -, none⟩ := Attempt.andThen_eq_done_iff.1 ran
    rw [sized] at none
    cases none
  | ok size =>
    rw [runMachine_eq_carryOut sized] at ran
    obtain ⟨⟨⟩, m₁, worked, e⟩ := Attempt.andThen_eq_done_iff.1 ran
    obtain rfl : m₁ = m := congrArg Prod.snd e
    have events : c.frameEvents inputs = inputs.work size ++ [.tick] := by
      rw [frameEvents, FrameInputs.plan, sized]
      exact performed_append_of_done worked [.tick]
    refine ⟨?_, ?_, rfl⟩
    · rw [frameEvents, after_performed, FrameInputs.plan, sized]
      simp only [carryOut_append, worked, Attempt.andThen_done]
      rfl
    · rw [events, List.countP_append, List.countP_eq_zero.2 fun e he => by
        simp [FrameInputs.not_isTick_of_mem_work he]]
      rfl

/-- A frame that faults performs no tick. -/
theorem accounts_of_frame_fail (h : c.runFrame inputs = .fail f c') :
    c.Accounts c' (c.frameEvents inputs) 0 := by
  obtain ⟨m, stops, rfl⟩ := runFrame_eq_fail_iff.1 h
  have ran := runMachine_eq_fail_iff.2 stops
  cases sized : budget inputs c.pace with
  | error g =>
    have events : c.frameEvents inputs = c.machine.performed inputs.keyEvents := by
      rw [frameEvents, FrameInputs.plan, sized]
    refine ⟨?_, ?_, rfl⟩
    · rw [events, after_performed, carryOut_keyEvents]
      simp only [runMachine, sized] at ran
      rcases e : c.machine.onKeypad (applyKeys inputs) with ⟨_ | _, m₁⟩
      · rw [e] at ran
        exact (congrArg Prod.snd ran).symm
      · rw [e] at ran
        exact (congrArg Prod.snd ran).symm
    · rw [events, List.countP_eq_zero]
      intro e he
      simp [FrameInputs.not_isTick_of_mem_keyEvents ((performed_sublist _ _).mem he)]
  | ok size =>
    rw [runMachine_eq_carryOut sized] at ran
    rcases Attempt.andThen_eq_fail_iff.1 ran with fault | ⟨-, m₁, -, done⟩
    · have events : c.frameEvents inputs = c.machine.performed (inputs.work size) := by
        rw [frameEvents, FrameInputs.plan, sized]
        exact performed_append_of_fail fault [.tick]
      refine ⟨?_, ?_, rfl⟩
      · rw [events, after_performed]
        exact (congrArg Prod.snd fault).symm
      · rw [events, List.countP_eq_zero]
        intro e he
        simp [FrameInputs.not_isTick_of_mem_work ((performed_sublist _ _).mem he)]
    · cases done

/-! ### Histories -/

/-- The events that frames perform, up to the first frame that faults. -/
def events : List FrameInputs → Console σ → List Event
  | [], _ => []
  | inputs :: list, c => c.frameEvents inputs ++
    match c.runFrame inputs with
    | (.ok _, c') => events list c'
    | (.error _, _) => []

/-- How many frames complete, up to the first that faults. -/
def completed : List FrameInputs → Console σ → Nat
  | [], _ => 0
  | inputs :: list, c =>
    match c.runFrame inputs with
    | (.ok _, c') => 1 + completed list c'
    | (.error _, _) => 0

theorem accounts_runFrames : ∀ (list : List FrameInputs) (c : Console σ),
    c.Accounts (c.runFrames list).2 (c.events list) (c.completed list)
  | [], c => .refl c
  | inputs :: list, c => by
    rw [runFrames, events, completed]
    rcases h : c.runFrame inputs with ⟨f | result, c₁⟩
    · rw [List.append_nil]
      exact accounts_of_frame_fail h
    · have all := (accounts_of_frame_done h).trans (accounts_runFrames list c₁)
      rw [Attempt.andThen_done]
      rcases e : c₁.runFrames list with ⟨_ | _, c₂⟩
      · rwa [e] at all
      · rwa [e] at all

end Console

/-- What a host may ask of a console. -/
inductive Drive where
  /-- One frame. -/
  | frame (inputs : FrameInputs)
  /-- Frames one after the other. -/
  | frames (list : List FrameInputs)

namespace Drive

/-- The frames that are asked for. -/
def inputs : Drive → List FrameInputs
  | frame inputs => [inputs]
  | frames list => list

variable {σ : Type} [RandomSource σ]

/-- The outcome on a console. -/
def perform : Drive → Console σ → Attempt (Console σ) (List FrameResult)
  | frame inputs, c => (c.runFrame inputs).andThen fun result c => .done [result] c
  | frames list, c => c.runFrames list

/-- One frame is a list of one. -/
theorem perform_eq (d : Drive) (c : Console σ) : d.perform c = c.runFrames d.inputs := by
  cases d with
  | frame => rfl
  | frames => rfl

end Drive

namespace Console

open Machine

variable {σ : Type} [RandomSource σ]

/-- The console after a history. A fault ends what was asked for, not the
history. -/
def afterDrives : List Drive → Console σ → Console σ
  | [], c => c
  | d :: ds, c => afterDrives ds (d.perform c).2

/-- The events that a console performs on its machine over a history. -/
def eventsOf : List Drive → Console σ → List Event
  | [], _ => []
  | d :: ds, c => c.events d.inputs ++ eventsOf ds (d.perform c).2

/-- How many frames complete over a history. -/
def completedOf : List Drive → Console σ → Nat
  | [], _ => 0
  | d :: ds, c => c.completed d.inputs + completedOf ds (d.perform c).2

theorem accounts_afterDrives : ∀ (ds : List Drive) (c : Console σ),
    c.Accounts (c.afterDrives ds) (c.eventsOf ds) (c.completedOf ds)
  | [], c => .refl c
  | d :: ds, c => by
    have first := accounts_runFrames d.inputs c
    rw [← d.perform_eq] at first
    exact first.trans (accounts_afterDrives ds _)

/-- **Frames that complete are counted and tick, and others do neither.** A frame
faults just where `FrameInputs.Stops` has it, and nothing of the console is
changed but its machine. Frames one after the other fault where one of them
does; those before it have completed, and those after it are not begun. Over any
history the console's count goes up by the frames that completed, and so many
are the ticks among the events that its machine performed. -/
theorem frames_count_ticks_and_stop (c : Console σ) :
    (∀ inputs f c', c.runFrame inputs = .fail f c' ↔
      ∃ m, inputs.Stops c.pace c.machine f m ∧ c' = { c with machine := m }) ∧
    (∀ list f c', c.runFrames list = .fail f c' ↔ ∃ front inputs back results c₁,
      list = front ++ inputs :: back ∧ c.runFrames front = .done results c₁ ∧
        c₁.runFrame inputs = .fail f c') ∧
    ∀ ds : List Drive,
      (c.afterDrives ds).frameCount = c.frameCount + c.completedOf ds ∧
        (c.eventsOf ds).countP Event.isTick = c.completedOf ds ∧
        (c.afterDrives ds).machine = c.machine.after (c.eventsOf ds) := by
  refine ⟨fun _ _ _ => runFrame_eq_fail_iff, fun _ _ _ => runFrames_eq_fail_iff, fun ds => ?_⟩
  have accounts := accounts_afterDrives ds c
  exact ⟨accounts.frames, accounts.ticks, accounts.machine⟩

end Console

end ChipEight
