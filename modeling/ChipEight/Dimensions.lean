/-
# Dimensions of the machine

The fixed sizes and addresses, and the names under which a host looks them up.

Key definitions: `Dimensions.memorySize`, `Dimensions.named`.
-/

namespace ChipEight

namespace Dimensions

/-- How many bytes can be addressed. -/
abbrev memorySize : Nat := 0x1000

/-- Where programs are put and begin to run. What lies below is the machine's
own; only the font is there. -/
abbrev programStart : Nat := 0x200

/-- How long a program may be: as long as fits above its start. -/
abbrev maxProgramSize : Nat := memorySize - programStart

/-- How many general registers there are. -/
abbrev registerCount : Nat := 16

/-- The register that holds the flag. -/
abbrev flagRegister : Fin registerCount := 0xF

/-- The register that is added to the target of `BNNN`. -/
abbrev jumpRegister : Fin registerCount := 0

/-- How many return addresses the stack holds. -/
abbrev stackDepth : Nat := 16

/-- How many keys there are. -/
abbrev keyCount : Nat := 16

/-- How many pixels a display row has. -/
abbrev screenWidth : Nat := 64

/-- How many rows the display has. -/
abbrev screenHeight : Nat := 32

/-- Where the font is in memory. -/
abbrev fontBase : Nat := 0

/-- How many rows, one byte each, a glyph has. -/
abbrev glyphHeight : Nat := 5

/-- How many glyphs the font has. -/
abbrev glyphCount : Nat := 16

/-- How many bytes the font has. -/
abbrev fontSize : Nat := glyphHeight * glyphCount

/-- How many bytes an instruction has. -/
abbrev instructionSize : Nat := 2

/-- The greatest byte. -/
abbrev byteMask : Nat := 0xFF

/-- The greatest word. -/
abbrev wordMask : Nat := 0xFFFF

/-- The greatest address. -/
abbrev addressMask : Nat := 0x0FFF

/-- Every dimension under its public name. -/
def named : List (String × Nat) := [
  ("MEMORY_SIZE", memorySize),
  ("PROGRAM_START", programStart),
  ("MAX_PROGRAM_SIZE", maxProgramSize),
  ("NUM_REGISTERS", registerCount),
  ("FLAG_REGISTER", flagRegister),
  ("STACK_DEPTH", stackDepth),
  ("NUM_KEYS", keyCount),
  ("SCREEN_WIDTH", screenWidth),
  ("SCREEN_HEIGHT", screenHeight),
  ("FONT_BASE", fontBase),
  ("GLYPH_HEIGHT", glyphHeight),
  ("GLYPH_COUNT", glyphCount),
  ("FONTSET_SIZE", fontSize),
  ("INSTRUCTION_SIZE", instructionSize),
  ("BYTE_MASK", byteMask),
  ("WORD_MASK", wordMask),
  ("ADDR_MASK", addressMask)]

end Dimensions

end ChipEight
