import Mathlib.Tactic.SplitIfs
import Vcs.Processor.Step

/-!
# Recording a Bus

A recorder sits between the processor and its bus, passes everything on and writes down what happened: the
accesses with the bytes they transferred, and the cycles that were reported between them.  The processor does
not notice.  Forgetting the record of a step is the step of the processor on the bus itself, so what the
record of a step says holds of that step.
-/

namespace Vcs

/-- What a bus is told. -/
inductive BusEvent where
  | elapse (cycles : Nat)
  | read (address : UInt16) (value : UInt8)
  | write (address : UInt16) (value : UInt8)
  deriving DecidableEq, Repr

/-- Whether an event transfers a byte. -/
def BusEvent.isAccess : BusEvent → Bool
  | elapse _ => false
  | read .. | write .. => true

/-- A bus and the record of what it was told. -/
structure Recorder (β : Type) where
  bus : β
  events : List BusEvent := []

instance {β : Type} [Bus β] : Bus (Recorder β) where
  read address r :=
    let bus := Bus.read address r.bus
    { bus := bus, events := r.events ++ [.read address (Bus.latch bus)] }
  write address value r :=
    { bus := Bus.write address value r.bus, events := r.events ++ [.write address value] }
  latch r := Bus.latch r.bus
  elapse cycles r :=
    { bus := Bus.elapse cycles r.bus, events := r.events ++ [.elapse cycles] }
  stopRequested r := Bus.stopRequested r.bus

namespace Processor

variable {β : Type} [Bus β]

/-- Puts a recorder with an empty record on the bus. -/
def record (p : Processor β) : Processor (Recorder β) :=
  { p with bus := { bus := p.bus } }

/-- Takes the recorder off the bus. -/
def forget (p : Processor (Recorder β)) : Processor β :=
  { p with bus := p.bus.bus }

omit [Bus β] in
theorem forget_record (p : Processor β) : p.record.forget = p := rfl

theorem forget_readIndexed (p : Processor (Recorder β)) (base : UInt16) (index : UInt8) :
    (p.readIndexed base index).forget = p.forget.readIndexed base index := by
  unfold readIndexed
  split <;> rfl

theorem forget_readOperand (p : Processor (Recorder β)) (mode : AddressingMode) :
    (p.readOperand mode).forget = p.forget.readOperand mode := by
  cases mode with
  | absoluteX | absoluteY | indirectY => exact forget_readIndexed _ _ _
  | _ => rfl

theorem forget_jump (p : Processor (Recorder β)) (mode : AddressingMode) :
    (p.jump mode).forget = p.forget.jump mode := by
  cases mode <;> rfl

theorem forget_branch (p : Processor (Recorder β)) (taken : Bool) :
    (p.branch taken).forget = p.forget.branch taken := by
  cases taken <;> rfl

theorem forget_execute (p : Processor (Recorder β)) (operation : Operation)
    (mode : AddressingMode) :
    (p.execute operation mode).forget = p.forget.execute operation mode := by
  have hoperand := forget_readOperand p mode
  cases operation with
  | read operation =>
    exact congrArg (fun q : Processor β ↦
      { q with registers := operation.apply q.registers q.latch }) hoperand
  | store source =>
    exact congrArg (fun q : Processor β ↦ q.poke q.address (source.value q.registers)) hoperand
  | modify operation =>
    exact congrArg (fun q : Processor β ↦
      { q with registers := (operation.apply q.registers q.latch).2 }.poke q.address
        (operation.apply q.registers q.latch).1) hoperand
  | branch flag on => exact forget_branch p _
  | jump => exact forget_jump p mode
  | _ => rfl

theorem forget_settle (p : Processor (Recorder β)) (cost : Nat) :
    (p.settle cost).forget = p.forget.settle cost := by
  by_cases hrest : cost - p.signalled = 0
  · have hforget : cost - p.forget.signalled = 0 := hrest
    simp only [settle, if_pos hrest, if_pos hforget]
  · have hforget : cost - p.forget.signalled ≠ 0 := hrest
    simp only [settle, if_neg hrest, if_neg hforget]
    rfl

/-- What a step comes to when the opcode has an operation. -/
theorem step_of_operation {p : Processor β} {operation : Operation}
    (h : (Instruction.decode p.fetchOpcode.opcode).mnemonic.operation = some operation) :
    let instruction := Instruction.decode p.fetchOpcode.opcode
    let done := p.fetchOpcode.execute operation instruction.mode
    p.step = (.ok (done.settle (done.cost instruction)).signalled,
      (done.settle (done.cost instruction)).retire) := by
  simp only [step, h]

theorem forget_step (p : Processor (Recorder β)) :
    p.forget.step = (p.step.1, p.step.2.forget) := by
  have hfetch : p.fetchOpcode.forget = p.forget.fetchOpcode := rfl
  have hopcode : p.forget.fetchOpcode.opcode = p.fetchOpcode.opcode := rfl
  rcases hoperation : (Instruction.decode p.fetchOpcode.opcode).mnemonic.operation with
    _ | operation
  · have hforget : (Instruction.decode p.forget.fetchOpcode.opcode).mnemonic.operation = none :=
      hoperation
    simp only [step, hoperation, hforget]
    rfl
  · have hforget : (Instruction.decode p.forget.fetchOpcode.opcode).mnemonic.operation =
        some operation := hoperation
    let instruction := Instruction.decode p.fetchOpcode.opcode
    let done := p.fetchOpcode.execute operation instruction.mode
    have hsettle := forget_settle done (done.cost instruction)
    rw [step_of_operation hoperation, step_of_operation hforget, hopcode, ← hfetch,
      ← forget_execute]
    exact (congrArg (fun q : Processor β ↦ (Except.ok q.signalled, q.retire)) hsettle).symm

end Processor

end Vcs
