import Vcs.Processor.Opcode
import Vcs.Text.Hex
import Vcs.Processor.Operand

/-!
# Execution

One step executes one whole instruction.  The reads it makes are announced as they happen; whatever its
table cost leaves over is reported in one lump at the end.  An opcode without an operation is an error:
the program counter is then past it and the cycle of its fetch counts towards the next instruction.
-/

namespace Vcs

/-- Execution cannot continue. -/
inductive Fault where
  /-- The opcode at `address` has no operation. -/
  | unknownOpcode (address : UInt16) (opcode : UInt8)
  deriving DecidableEq, Repr

/-- How a fault is worded. -/
def Fault.message : Fault → String
  | unknownOpcode address opcode =>
    "unknown opcode 0x" ++ Text.Hex.byte opcode ++ " at 0x" ++ Text.Hex.word address

namespace Processor

variable {β : Type} [Bus β]

/-- Moves the program counter and reads the byte there, in a cycle of the instruction's own. -/
@[specialize]
def land (p : Processor β) (target : UInt16) : Processor β :=
  (p.peekUnsignalled target).jumpTo target

/-- Jumps. -/
@[specialize]
def jump (p : Processor β) (mode : AddressingMode) : Processor β :=
  let (low, p) := p.fetchPair
  let pointer := wordOf low p.latch
  match mode with
  | .indirect =>
    let p := p.peek pointer
    let low := p.latch
    let p := p.peek (pointer + 1)
    p.land (wordOf low p.latch)
  | _ => p.land pointer

/-- Calls a subroutine.  What is pushed is the address of the instruction's own last byte. -/
@[specialize]
def call (p : Processor β) : Processor β :=
  let p := p.fetch
  let low := p.latch
  let p := p.peekStack
  let p := (p.pushWord p.registers.pc).fetch
  p.jumpTo (wordOf low p.latch)

/-- Pulls the program counter. -/
@[specialize]
def pullPc (p : Processor β) : Processor β :=
  let p := p.pop
  let low := p.latch
  let p := p.pop
  p.jumpTo (wordOf low p.latch)

/-- Returns from a subroutine, to the byte after the pushed address. -/
@[specialize]
def leave (p : Processor β) : Processor β :=
  p.peekStack.pullPc.fetch

/-- Pulls what belongs to a stack item. -/
@[specialize]
def pull (p : Processor β) (item : StackItem) : Processor β :=
  let p := p.peekStack.pop
  { p with registers := item.restore p.registers p.latch }

/-- Returns from an interrupt: the status comes off the stack before the program counter. -/
@[specialize]
def leaveInterrupt (p : Processor β) : Processor β :=
  (p.pull .status).pullPc

/-- Interrupts the program by its own wish.  The byte after the opcode is skipped, and the pushed status
has the break flag set. -/
@[specialize]
def interrupt (p : Processor β) : Processor β :=
  let p := p.fetch
  let p := { p with registers := { p.registers with flags := { p.registers.flags with b := true } } }
  let p := (p.pushWord p.registers.pc).push p.registers.flags.toByte
  let p := { p with registers := { p.registers with flags := { p.registers.flags with i := true } } }
  p.jumpThrough 0xFFFE

/-- The target of a branch, which counts from the byte after it. -/
@[inline]
def branchTarget (pc : UInt16) (offset : UInt8) : UInt16 :=
  pc + offset.toInt8.toInt16.toUInt16

/-- Branches if the condition holds, at a surcharge that depends on the page of the target. -/
@[specialize]
def branch (p : Processor β) (taken : Bool) : Processor β :=
  let p := p.readOperand .relative
  let offset := p.latch
  if taken then
    let p := p.peek p.registers.pc
    let target := branchTarget p.registers.pc offset
    let surcharge := if highByte target = highByte p.registers.pc then 1 else 2
    { p with surcharge := surcharge }.jumpTo target
  else p

/-- Does the work of an instruction whose opcode has been fetched. -/
@[specialize]
def execute (p : Processor β) (operation : Operation) (mode : AddressingMode) : Processor β :=
  match operation with
  | .read operation =>
    let p := p.readOperand mode
    { p with registers := operation.apply p.registers p.latch }
  | .store source =>
    let p := p.readOperand mode
    p.poke p.address (source.value p.registers)
  | .modify operation =>
    let p := p.readOperand mode
    let (result, registers) := operation.apply p.registers p.latch
    { p with registers := registers }.poke p.address result
  | .internal operation => { p with registers := operation.apply p.registers }
  | .push item => p.push (item.value p.registers)
  | .pull item => p.pull item
  | .branch flag on => p.branch (p.registers.flags.get flag == on)
  | .jump => p.jump mode
  | .call => p.call
  | .leave => p.leave
  | .leaveInterrupt => p.leaveInterrupt
  | .interrupt => p.interrupt

/-- Cycles the instruction in flight costs altogether. -/
@[inline]
def cost (p : Processor β) (instruction : Instruction) : Nat :=
  (instruction.cycles + instruction.extra.billed p.surcharge).toNat

/-- Spends the cycles of the instruction in flight that have not been announced yet. -/
@[specialize]
def settle (p : Processor β) (cost : Nat) : Processor β :=
  let rest := cost - p.signalled
  if rest = 0 then p
  else { p with signalled := p.signalled + rest, bus := Bus.elapse rest p.bus }

/-- Finishes the instruction in flight, all cycles of which have been spent. -/
@[inline]
def retire (p : Processor β) : Processor β :=
  { p with signalled := 0, retired := p.retired + 1 }

/-- Fetches the opcode of the next instruction. -/
@[inline]
def fetchOpcode (p : Processor β) : Processor β :=
  let p := p.fetch
  { p with opcode := p.latch, surcharge := 0 }

/-- Executes one instruction; the result is the number of cycles it took. -/
@[inline]
def step (p : Processor β) : Except Fault Nat × Processor β :=
  let p := p.fetchOpcode
  let instruction := Instruction.decode p.opcode
  match instruction.mnemonic.operation with
  | none => (.error (.unknownOpcode (p.registers.pc - 1) p.opcode), p)
  | some operation =>
    let p := p.execute operation instruction.mode
    let p := p.settle (p.cost instruction)
    (.ok p.signalled, p.retire)

/-- Executes at most `budget` instructions, `done` having been executed before.  It ends after the first
one that leaves a request to stop, and the result counts the instructions executed. -/
@[specialize]
def runFrom (p : Processor β) (done : Nat) : (budget : Nat) → Except Fault Nat × Processor β
  | 0 => (.ok done, p)
  | budget + 1 =>
    match p.step with
    | (.error fault, p) => (.error fault, p)
    | (.ok _, p) =>
      if Bus.stopRequested p.bus then (.ok (done + 1), p) else p.runFrom (done + 1) budget

/-- Executes at most `budget` instructions, fewer if the bus asks for a stop. -/
@[specialize]
def run (p : Processor β) (budget : Nat) : Except Fault Nat × Processor β :=
  p.runFrom 0 budget

/-- Clears the registers and jumps through the reset vector. -/
@[specialize]
def reset (p : Processor β) : Processor β :=
  let p := { p with registers := {}, signalled := 0, surcharge := 0 }
  { p.jumpThrough 0xFFFC with signalled := 0 }

end Processor

end Vcs
