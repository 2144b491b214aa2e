import Vcs.Processor.Basic
import Vcs.Processor.Instruction

/-!
# Operands

How an addressing mode finds its operand.  Afterwards the effective address is on record, the operand is
on the data bus, and the surcharge is one exactly if indexing carried into the high byte of the address.
-/

namespace Vcs.Processor

variable {β : Type} [Bus β]

/-- Reads the operand at an address. -/
@[inline]
def readAt (p : Processor β) (address : UInt16) : Processor β :=
  { p with address := address }.peek address

/-- Whether an index carries out of the low byte of an address. -/
@[inline]
def crosses (base : UInt16) (index : UInt8) : Bool :=
  0xFF < (lowByte base).toNat + index.toNat

/-- Reads the operand at an indexed address.  A carry into the high byte costs a read of its own. -/
@[specialize]
def readIndexed (p : Processor β) (base : UInt16) (index : UInt8) : Processor β :=
  let address := base + index.toUInt16
  if crosses base index then
    ({ p with surcharge := 1 }.peek address).readAt address
  else
    p.readAt address

/-- Reads an operand of page zero whose address is the next byte plus an index.  The unindexed address is
read first; the sum stays in page zero. -/
@[specialize]
def readZeroPageIndexed (p : Processor β) (index : UInt8) : Processor β :=
  let p := p.fetch
  let base := p.latch
  (p.peek base.toUInt16).readAt (base + index).toUInt16

/-- Fetches two bytes; the first is the result's low byte and the second is left on the data bus. -/
@[inline]
def fetchPair (p : Processor β) : UInt8 × Processor β :=
  let p := p.fetch
  let low := p.latch
  (low, p.fetch)

/-- Reads two bytes of page zero, wrapping within it, in the same manner. -/
@[inline]
def peekPair (p : Processor β) (pointer : UInt8) : UInt8 × Processor β :=
  let p := p.peek pointer.toUInt16
  let low := p.latch
  (low, p.peek (pointer + 1).toUInt16)

/-- Finds the operand of an addressing mode and reads it. -/
@[specialize]
def readOperand (p : Processor β) (mode : AddressingMode) : Processor β :=
  match mode with
  | .immediate | .relative => { p with address := p.registers.pc }.fetch
  | .zeroPage =>
    let p := p.fetch
    p.readAt p.latch.toUInt16
  | .zeroPageX => p.readZeroPageIndexed p.registers.x
  | .zeroPageY => p.readZeroPageIndexed p.registers.y
  | .absolute =>
    let (low, p) := p.fetchPair
    p.readAt (wordOf low p.latch)
  | .absoluteX =>
    let (low, p) := p.fetchPair
    p.readIndexed (wordOf low p.latch) p.registers.x
  | .absoluteY =>
    let (low, p) := p.fetchPair
    p.readIndexed (wordOf low p.latch) p.registers.y
  | .indirectX =>
    let p := p.fetch
    let (low, p) := p.peekPair (p.latch + p.registers.x)
    p.readAt (wordOf low p.latch)
  | .indirectY =>
    let p := p.fetch
    let (low, p) := p.peekPair p.latch
    p.readIndexed (wordOf low p.latch) p.registers.y
  | .indirect | .implied | .invalid => p

end Vcs.Processor
