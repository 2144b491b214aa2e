import Vcs.Processor.Flags

/-!
# Processor Registers

The register file of the 6507.  The stack lives in page one and grows downwards: the stack pointer
names the next free byte and wraps within that page.
-/

namespace Vcs

/-- Registers of the processor. -/
structure Registers where
  /-- Accumulator. -/
  a : UInt8 := 0
  x : UInt8 := 0
  y : UInt8 := 0
  /-- Stack pointer. -/
  sp : UInt8 := 0xFF
  /-- Program counter; only its low thirteen bits leave the chip. -/
  pc : UInt16 := 0
  flags : Flags := {}
  deriving DecidableEq, Repr

/-- The word with the given low and high bytes. -/
@[inline]
def wordOf (low high : UInt8) : UInt16 :=
  (high.toUInt16 <<< 8) ||| low.toUInt16

/-- Low byte of a word. -/
@[inline]
def lowByte (word : UInt16) : UInt8 :=
  word.toUInt8

/-- High byte of a word. -/
@[inline]
def highByte (word : UInt16) : UInt8 :=
  (word >>> 8).toUInt8

namespace Registers

/-- Address of the byte the stack pointer names. -/
@[inline]
def stackAddress (registers : Registers) : UInt16 :=
  0x0100 ||| registers.sp.toUInt16

/-- Replaces the accumulator; negative and zero follow it. -/
@[inline]
def loadA (registers : Registers) (value : UInt8) : Registers :=
  { registers with a := value, flags := registers.flags.withResult value }

/-- Replaces X; negative and zero follow it. -/
@[inline]
def loadX (registers : Registers) (value : UInt8) : Registers :=
  { registers with x := value, flags := registers.flags.withResult value }

/-- Replaces Y; negative and zero follow it. -/
@[inline]
def loadY (registers : Registers) (value : UInt8) : Registers :=
  { registers with y := value, flags := registers.flags.withResult value }

end Registers

end Vcs
