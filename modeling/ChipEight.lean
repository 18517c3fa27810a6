import ChipEight.Binary64
import ChipEight.Binary64.Shortest
import ChipEight.Config
import ChipEight.Config.Stored
import ChipEight.Console
import ChipEight.Dimensions
import ChipEight.Fault
import ChipEight.Fault.Report
import ChipEight.Font
import ChipEight.Grid
import ChipEight.Grid.Views
import ChipEight.Instruction
import ChipEight.Json
import ChipEight.Json.Inline
import ChipEight.Json.Reader
import ChipEight.Json.Writer
import ChipEight.Keypad
import ChipEight.Machine
import ChipEight.Machine.Step
import ChipEight.Memory
import ChipEight.Numeral
import ChipEight.Numeral.Reading
import ChipEight.Opcode
import ChipEight.Operand
import ChipEight.Proofs.Bounds
import ChipEight.Proofs.CallStack
import ChipEight.Proofs.CollisionCounts
import ChipEight.Proofs.CommutingEvents
import ChipEight.Proofs.ControlFlow
import ChipEight.Proofs.ConvertedConfigs
import ChipEight.Proofs.Countdown
import ChipEight.Proofs.DeadState
import ChipEight.Proofs.DependableConfigs
import ChipEight.Proofs.Differences
import ChipEight.Proofs.Drawing
import ChipEight.Proofs.Encoding
import ChipEight.Proofs.Executions
import ChipEight.Proofs.Faults
import ChipEight.Proofs.FlagArithmetic
import ChipEight.Proofs.FrameHistories
import ChipEight.Proofs.Frames
import ChipEight.Proofs.Glyphs
import ChipEight.Proofs.History
import ChipEight.Proofs.InstructionCounts
import ChipEight.Proofs.JsonTexts
import ChipEight.Proofs.KeyChanges
import ChipEight.Proofs.KeyWait
import ChipEight.Proofs.LitPixels
import ChipEight.Proofs.Loading
import ChipEight.Proofs.Lockstep
import ChipEight.Proofs.MemoryProvenance
import ChipEight.Proofs.MemoryWrites
import ChipEight.Proofs.Numerals
import ChipEight.Proofs.OpcodeTables
import ChipEight.Proofs.PackedViews
import ChipEight.Proofs.Packing
import ChipEight.Proofs.PixelByPixel
import ChipEight.Proofs.PressedKeys
import ChipEight.Proofs.RandomDraws
import ChipEight.Proofs.ReadSet
import ChipEight.Proofs.Redrawing
import ChipEight.Proofs.SavedRegisters
import ChipEight.Proofs.Snapshots
import ChipEight.Proofs.Sprites
import ChipEight.Proofs.StepEffects
import ChipEight.Proofs.Stepping
import ChipEight.Proofs.StoredConfigs
import ChipEight.Proofs.TimerIndependence
import ChipEight.Proofs.WordPrograms
import ChipEight.Proofs.WriteSet
import ChipEight.Random.Source
import ChipEight.Random.Supply
import ChipEight.Random.Twister
import ChipEight.Snapshot
import ChipEight.Snapshot.Diff
import ChipEight.Text
import ChipEight.Text.Blank
import ChipEight.Text.DecimalDigit
import ChipEight.Text.Printable
import ChipEight.Timers
