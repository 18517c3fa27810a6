/-
# Driving a machine frame by frame

A console holds a machine and drives it in frames. In one frame keys are
released and pressed, a batch of instructions runs, and the timers tick once.
How large the batch is comes with the frame, or from the console's own pace. A
frame that faults stays undone from there on: its timers do not tick and it is
not counted.

Key definitions: `Console`, `FrameInputs`, `FrameResult`, `Console.runFrame`,
`Console.runFrames`.
Key theorems: `Console.runFrames_append`.
-/
import ChipEight.Machine.Step
import ChipEight.Snapshot

namespace ChipEight

/-- What a frame starts with. -/
structure FrameInputs where
  press : List Json := []
  release : List Json := []
  releaseAll : Bool := false
  /-- How many instructions to run; by default as the pace has it. -/
  instructions : Option Int := none

/-- What a frame ends with. -/
structure FrameResult where
  executed : Int
  soundActive : Bool
  state : Snapshot
  deriving DecidableEq

/-- A machine driven in frames. -/
structure Console (σ : Type) where
  machine : Machine σ
  /-- The configuration whose rates set the pace. -/
  pace : Config
  frameCount : Nat := 0

namespace Console

variable {σ α : Type}

/-- A console for a machine. Without a pace of its own it goes by the machine's
configuration. -/
def ofMachine (machine : Machine σ) (pace : Option Config) : Console σ :=
  { machine := machine, pace := pace.getD machine.config }

/-- An operation on the machine as one on the console. -/
def onMachine (f : Machine σ → Attempt (Machine σ) α) (c : Console σ) : Attempt (Console σ) α :=
  let (r, m) := f c.machine
  (r, { c with machine := m })

/-- The key changes of a frame. -/
def applyKeys (inputs : FrameInputs) (p : Keypad) : Attempt Keypad Unit :=
  (if inputs.releaseAll then Keypad.released else p).apply inputs.press inputs.release

/-- How many instructions a frame runs. The pace must give a whole number. -/
def budget (inputs : FrameInputs) (pace : Config) : Except Fault Int :=
  match inputs.instructions with
  | some n => .ok n
  | none =>
    match pace.instructionsPerFrame with
    | .ok n =>
      match n.toJson.wholeNumber? with
      | some n => .ok n
      | none => .error .realBudget
    | .error _ => .error .rateTooLarge

variable [RandomSource σ]

/-- One frame on the machine, up to but without the timer tick. -/
def runMachine (inputs : FrameInputs) (pace : Config) (m : Machine σ) : Attempt (Machine σ) Int :=
  (m.onKeypad (applyKeys inputs)).andThen fun _ m =>
    match budget inputs pace with
    | .ok n => m.run n
    | .error fault => .fail fault m

/-- One frame. -/
def runFrame (inputs : FrameInputs) (c : Console σ) : Attempt (Console σ) FrameResult :=
  (c.onMachine (runMachine inputs c.pace)).andThen fun executed c =>
    let m := c.machine.tickTimers
    .done ⟨executed, m.soundActive, m.snapshot⟩
      { c with machine := m, frameCount := c.frameCount + 1 }

/-- Frames one after the other, up to the first that faults. -/
def runFrames : List FrameInputs → Console σ → Attempt (Console σ) (List FrameResult)
  | [], c => .done [] c
  | inputs :: rest, c =>
    (c.runFrame inputs).andThen fun result c =>
      (runFrames rest c).andThen fun results c => .done (result :: results) c

/-- Frames in two parts are the frames in one. -/
theorem runFrames_append : ∀ (fs gs : List FrameInputs) (c : Console σ),
    c.runFrames (fs ++ gs) = (c.runFrames fs).andThen fun rs c =>
      (c.runFrames gs).andThen fun ss c => .done (rs ++ ss) c
  | [], gs, c => by
    simp only [List.nil_append, runFrames, Attempt.andThen_done]
    rcases c.runFrames gs with ⟨_ | ss, c'⟩ <;> rfl
  | f :: fs, gs, c => by
    simp only [List.cons_append, runFrames]
    rcases c.runFrame f with ⟨_ | r, c'⟩
    · rfl
    · simp only [Attempt.andThen, runFrames_append fs gs c']
      rcases c'.runFrames fs with ⟨_ | rs, c''⟩
      · rfl
      · simp only
        rcases c''.runFrames gs with ⟨_ | ss, c'''⟩ <;> rfl

end Console

end ChipEight
