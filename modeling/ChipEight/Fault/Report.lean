/-
# Fault reports

What a host is told of a fault: its kind, its message, and the word and the
address where the kind has them. A report is made of a fault that arose, or
put together by hand from the values that its kind takes: a word and perhaps
an address; an address and perhaps a message of its own; or any values, which
then are the message.

Key definitions: `Report`, `Report.ofFault?`, `Report.build`.
Key theorems: `Report.build_unimplemented`, `Report.build_memoryAccess`.
-/
import ChipEight.Fault
import ChipEight.Json.Inline

namespace ChipEight

/-- What a host is told of a fault. -/
structure Report where
  kind : FaultKind
  message : Text
  /-- The word that matched no encoding. -/
  word : Option Nat := none
  /-- The address that the fault carries. -/
  address : Option Json := none

/-- Why a report cannot be put together. -/
inductive ReportError where
  /-- The values are not what the kind takes. -/
  | wrongArguments
  /-- An address cannot be shown in hexadecimal; this is the sort it is of. -/
  | notHexadecimal (sort : Text)
  deriving DecidableEq, Repr

namespace ReportError

/-- What is said of the error, where anything is. -/
def message? : ReportError → Option Text
  | .wrongArguments => none
  | .notHexadecimal sort =>
    some (Text.of "Unknown format code 'X' for object of type '" ++ sort ++ Text.of "'")

end ReportError

namespace Report

/-- The report of a fault of the machine's own family. -/
def ofFault? (f : Fault) : Option Report :=
  f.kind?.map fun kind => {
    kind := kind
    message := f.message
    word := match f with
      | .unimplemented word _ => some word
      | _ => none
    address := f.address?.map .int }

/-- A value in padded hexadecimal. -/
def hexAddress (width : Nat) : Json → Except ReportError Text
  | .int n => .ok (Numeral.hexPadded width n)
  | .bool b => .ok (Numeral.hexPadded width (Number.ofBool b))
  | .real _ => .error (.notHexadecimal (Text.of "float"))
  | .string _ => .error (.notHexadecimal (Text.of "str"))
  | _ => .error .wrongArguments

/-- The report of a word that matches no encoding: its low sixteen bits count,
and its place is named unless it is null. -/
def unimplemented (word address : Json) : Except ReportError Report := do
  let some word := word.wholeNumber? | .error .wrongArguments
  let low := (word % (Dimensions.wordMask + 1)).toNat
  let place ← match address with
    | .null => pure []
    | a => (hexAddress 3 a).map (Text.of " at " ++ ·)
  pure {
    kind := .unimplementedInstruction
    message := Fault.unimplementedMessage low place
    word := some low
    address := match address with
      | .null => none
      | a => some a }

/-- The report of an access outside memory; a message that counts as true
stands in for the usual one. -/
def memoryAccess (address message : Json) : Except ReportError Report := do
  let text ← if message.truthy then pure message.shown
    else (hexAddress 4 address).map (Text.of "Memory access out of range: " ++ ·)
  pure { kind := .memoryAccess, message := text, address := some address }

/-- A report of any other kind: nothing, one value as it is shown, or several
in brackets. -/
def plain (kind : FaultKind) : List Json → Report
  | [] => { kind := kind, message := [] }
  | [v] => { kind := kind, message := v.shown }
  | vs => { kind := kind, message := Json.inlineTuple vs }

/-- The report of a kind put together from values. -/
def build (kind : FaultKind) (values : List Json) : Except ReportError Report :=
  match kind, values with
  | .unimplementedInstruction, [word] => unimplemented word .null
  | .unimplementedInstruction, [word, address] => unimplemented word address
  | .unimplementedInstruction, _ => .error .wrongArguments
  | .memoryAccess, [address] => memoryAccess address .null
  | .memoryAccess, [address, message] => memoryAccess address message
  | .memoryAccess, _ => .error .wrongArguments
  | kind, values => .ok (plain kind values)

/-- Put together from its word and address, a report is that of the fault. -/
theorem build_unimplemented (word : Nat) (h : word < 65536) (address : Int) :
    (build .unimplementedInstruction [.int word, .int address]).toOption
      = ofFault? (.unimplemented word (some address)) := by
  have e : ((word : Int) % 65536).toNat = word := by omega
  simp [build, unimplemented, Json.wholeNumber?, hexAddress, ofFault?, Fault.kind?, Fault.message,
    Fault.address?, Except.toOption, Except.map, bind, Except.bind, pure, Except.pure, e]

/-- Put together from its address, a report is that of the fault. -/
theorem build_memoryAccess (address : Int) :
    (build .memoryAccess [.int address]).toOption = ofFault? (.memoryAccess address) := by
  simp [build, memoryAccess, Json.truthy, hexAddress, ofFault?, Fault.kind?, Fault.message,
    Fault.memoryAccessMessage, Fault.address?, Except.toOption, Except.map, bind, Except.bind,
    pure, Except.pure]

end Report

end ChipEight
