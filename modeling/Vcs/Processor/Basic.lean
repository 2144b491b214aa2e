import Vcs.Processor.Bus
import Vcs.Processor.Registers

/-!
# Processor on its Bus

The processor together with the system it drives, and the elementary accesses that instructions are made
of.  A read is announced to the bus one cycle before it happens; a write is never announced.  The address
of the operand and the surcharge belong to the instruction in flight and are set before they are used.
-/

namespace Vcs

/-- A processor and the bus it is wired to. -/
structure Processor (β : Type) where
  registers : Registers := {}
  bus : β
  /-- Opcode of the last instruction fetched. -/
  opcode : UInt8 := 0
  /-- Effective address of the last operand. -/
  address : UInt16 := 0
  /-- Cycles that indexing or a branch adds. -/
  surcharge : UInt8 := 0
  /-- Cycles announced one by one and not yet part of a finished instruction. -/
  signalled : Nat := 0
  /-- Instructions finished since power-on. -/
  retired : Nat := 0

namespace Processor

variable {β : Type} [Bus β]

/-- The byte the last access left on the data bus. -/
@[inline]
def latch (p : Processor β) : UInt8 :=
  Bus.latch p.bus

/-- Spends a cycle and reads an address. -/
@[specialize]
def peek (p : Processor β) (address : UInt16) : Processor β :=
  { p with
    signalled := p.signalled + 1
    bus := Bus.read address (Bus.elapse 1 p.bus) }

/-- Reads an address in a cycle that is settled with the rest of the instruction. -/
@[inline]
def peekUnsignalled (p : Processor β) (address : UInt16) : Processor β :=
  { p with bus := Bus.read address p.bus }

/-- Writes a byte to an address. -/
@[inline]
def poke (p : Processor β) (address : UInt16) (value : UInt8) : Processor β :=
  { p with bus := Bus.write address value p.bus }

/-- Moves the program counter. -/
@[inline]
def jumpTo (p : Processor β) (target : UInt16) : Processor β :=
  { p with registers := { p.registers with pc := target } }

/-- Reads the byte at the program counter and steps past it. -/
@[specialize]
def fetch (p : Processor β) : Processor β :=
  let p := p.peek p.registers.pc
  p.jumpTo (p.registers.pc + 1)

/-- Writes a byte where the stack pointer is and moves it down. -/
@[inline]
def push (p : Processor β) (value : UInt8) : Processor β :=
  let p := p.poke p.registers.stackAddress value
  { p with registers := { p.registers with sp := p.registers.sp - 1 } }

/-- Moves the stack pointer up and reads the byte it then names. -/
@[specialize]
def pop (p : Processor β) : Processor β :=
  let p := { p with registers := { p.registers with sp := p.registers.sp + 1 } }
  p.peek p.registers.stackAddress

/-- Reads the byte the stack pointer names and drops it. -/
@[inline]
def peekStack (p : Processor β) : Processor β :=
  p.peek p.registers.stackAddress

/-- Pushes a word, high byte first. -/
@[inline]
def pushWord (p : Processor β) (word : UInt16) : Processor β :=
  (p.push (highByte word)).push (lowByte word)

/-- Loads the program counter from an address and the one after it. -/
@[specialize]
def jumpThrough (p : Processor β) (vector : UInt16) : Processor β :=
  let p := p.peek vector
  let low := p.latch
  let p := p.peek (vector + 1)
  p.jumpTo (wordOf low p.latch)

end Processor

end Vcs
