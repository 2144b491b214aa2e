import Vcs.Observe
import Vcs.Processor.Step

/-!
# Questions about the Processor
-/

namespace Vcs.Processor

/-- What can be asked of a processor. -/
def questions {β : Type} : Questions (Processor β) :=
  [("pc", fun p ↦ .u16 p.registers.pc),
    ("a", fun p ↦ .u8 p.registers.a),
    ("x", fun p ↦ .u8 p.registers.x),
    ("y", fun p ↦ .u8 p.registers.y),
    ("sp", fun p ↦ .u8 p.registers.sp),
    ("p", fun p ↦ .u8 p.registers.flags.toByte),
    ("flags.n", fun p ↦ .bool p.registers.flags.n),
    ("flags.v", fun p ↦ .bool p.registers.flags.v),
    ("flags.b", fun p ↦ .bool p.registers.flags.b),
    ("flags.d", fun p ↦ .bool p.registers.flags.d),
    ("flags.i", fun p ↦ .bool p.registers.flags.i),
    ("flags.z", fun p ↦ .bool p.registers.flags.zero),
    ("flags.c", fun p ↦ .bool p.registers.flags.c),
    ("opcode", fun p ↦ .u8 p.opcode),
    ("mnemonic", fun p ↦ .label (Instruction.decode p.opcode).mnemonic.name),
    ("instructions", fun p ↦ .count p.retired)]

end Vcs.Processor
