import Vcs.Processor.Arithmetic
import Vcs.Processor.Instruction

/-!
# Operations

The kinds of work an instruction does, sorted by the traffic they cause on the bus.  Reading, modifying
and internal operations are pure functions on the registers; the rest is moved by the processor itself.
-/

namespace Vcs

/-- Operations that read their operand. -/
inductive ReadOperation where
  | add | subtract | and | or | xor
  | compareA | compareX | compareY | testBits
  | loadA | loadX | loadY | loadBoth
  | subtractFromMasked | andShiftRight
  | ignore
  deriving DecidableEq, Repr

/-- Effect of a reading operation. -/
def ReadOperation.apply (operation : ReadOperation) (r : Registers) (value : UInt8) : Registers :=
  match operation with
  | add => r.add value
  | subtract => r.subtract value
  | and => r.loadA (r.a &&& value)
  | or => r.loadA (r.a ||| value)
  | xor => r.loadA (r.a ^^^ value)
  | compareA => r.compare r.a value
  | compareX => r.compare r.x value
  | compareY => r.compare r.y value
  | testBits => r.testBits value
  | loadA => r.loadA value
  | loadX => r.loadX value
  | loadY => r.loadY value
  | loadBoth => { r.loadA value with x := value }
  | subtractFromMasked => r.subtractFromMasked value
  | andShiftRight => r.andShiftRight value
  | ignore => r

/-- Operations that replace their operand. -/
inductive ModifyOperation where
  | shiftLeft | shiftRight | rotateLeft | rotateRight | increment | decrement
  | decrementCompare | incrementSubtract | shiftLeftOr | rotateLeftAnd
  deriving DecidableEq, Repr

/-- Replacement of the operand, and the registers afterwards. -/
def ModifyOperation.apply (operation : ModifyOperation) (r : Registers) (value : UInt8) :
    UInt8 × Registers :=
  match operation with
  | shiftLeft => r.shiftLeft value
  | shiftRight => r.shiftRight value
  | rotateLeft => r.rotateLeft value
  | rotateRight => r.rotateRight value
  | increment => r.increment value
  | decrement => r.decrement value
  | decrementCompare => r.decrementCompare value
  | incrementSubtract => r.incrementSubtract value
  | shiftLeftOr => r.shiftLeftOr value
  | rotateLeftAnd => r.rotateLeftAnd value

/-- Operations that stay inside the processor. -/
inductive InternalOperation where
  /-- Modifies the accumulator. -/
  | accumulate (operation : ModifyOperation)
  /-- Sets a flag to a value. -/
  | setFlag (flag : Flags.Name) (on : Bool)
  | transferAX | transferXA | transferAY | transferYA | transferXS | transferSX
  | incrementX | incrementY | decrementX | decrementY
  deriving DecidableEq, Repr

/-- Effect of an internal operation. -/
def InternalOperation.apply (operation : InternalOperation) (r : Registers) : Registers :=
  match operation with
  | accumulate modify =>
    let (result, after) := modify.apply r r.a
    { after with a := result }
  | setFlag flag on => { r with flags := r.flags.set flag on }
  | transferAX => r.loadX r.a
  | transferXA => r.loadA r.x
  | transferAY => r.loadY r.a
  | transferYA => r.loadA r.y
  | transferXS => { r with sp := r.x }
  | transferSX => r.loadX r.sp
  | incrementX => r.loadX (r.x + 1)
  | incrementY => r.loadY (r.y + 1)
  | decrementX => r.loadX (r.x - 1)
  | decrementY => r.loadY (r.y - 1)

/-- What a store writes. -/
inductive StoreSource where
  | a | x | y | masked
  deriving DecidableEq, Repr

/-- The byte a store writes. -/
def StoreSource.value (source : StoreSource) (r : Registers) : UInt8 :=
  match source with
  | a => r.a
  | x => r.x
  | y => r.y
  | masked => r.a &&& r.x

/-- What goes through the stack one byte at a time. -/
inductive StackItem where
  | accumulator | status
  deriving DecidableEq, Repr

/-- The byte a push writes. -/
def StackItem.value (item : StackItem) (r : Registers) : UInt8 :=
  match item with
  | accumulator => r.a
  | status => r.flags.toByte

/-- The registers after a pull has read a byte. -/
def StackItem.restore (item : StackItem) (r : Registers) (value : UInt8) : Registers :=
  match item with
  | accumulator => r.loadA value
  | status => { r with flags := .ofByte value }

/-- The work of an instruction. -/
inductive Operation where
  | read (operation : ReadOperation)
  | store (source : StoreSource)
  | modify (operation : ModifyOperation)
  | internal (operation : InternalOperation)
  | push (item : StackItem)
  | pull (item : StackItem)
  /-- Branches if a flag has the given value. -/
  | branch (flag : Flags.Name) (on : Bool)
  | jump
  | call
  | leave
  | leaveInterrupt
  | interrupt
  deriving DecidableEq, Repr

/-- The operation a mnemonic names, if it can be executed. -/
def Mnemonic.operation : Mnemonic → Option Operation
  | adc => some (.read .add)
  | sbc => some (.read .subtract)
  | and => some (.read .and)
  | ora => some (.read .or)
  | eor => some (.read .xor)
  | cmp => some (.read .compareA)
  | cpx => some (.read .compareX)
  | cpy => some (.read .compareY)
  | bit => some (.read .testBits)
  | lda => some (.read .loadA)
  | ldx => some (.read .loadX)
  | ldy => some (.read .loadY)
  | lax => some (.read .loadBoth)
  | sbx => some (.read .subtractFromMasked)
  | asr => some (.read .andShiftRight)
  | nop | skip => some (.read .ignore)
  | sta => some (.store .a)
  | stx => some (.store .x)
  | sty => some (.store .y)
  | sax => some (.store .masked)
  | asl => some (.modify .shiftLeft)
  | lsr => some (.modify .shiftRight)
  | rol => some (.modify .rotateLeft)
  | ror => some (.modify .rotateRight)
  | inc => some (.modify .increment)
  | dec => some (.modify .decrement)
  | dcp => some (.modify .decrementCompare)
  | isb => some (.modify .incrementSubtract)
  | slo => some (.modify .shiftLeftOr)
  | rla => some (.modify .rotateLeftAnd)
  | aslA => some (.internal (.accumulate .shiftLeft))
  | lsrA => some (.internal (.accumulate .shiftRight))
  | rolA => some (.internal (.accumulate .rotateLeft))
  | rorA => some (.internal (.accumulate .rotateRight))
  | clc => some (.internal (.setFlag .carry false))
  | sec => some (.internal (.setFlag .carry true))
  | cli => some (.internal (.setFlag .interrupt false))
  | sei => some (.internal (.setFlag .interrupt true))
  | clv => some (.internal (.setFlag .overflow false))
  | cld => some (.internal (.setFlag .decimal false))
  | sed => some (.internal (.setFlag .decimal true))
  | tax => some (.internal .transferAX)
  | txa => some (.internal .transferXA)
  | tay => some (.internal .transferAY)
  | tya => some (.internal .transferYA)
  | txs => some (.internal .transferXS)
  | tsx => some (.internal .transferSX)
  | inx => some (.internal .incrementX)
  | iny => some (.internal .incrementY)
  | dex => some (.internal .decrementX)
  | dey => some (.internal .decrementY)
  | pha => some (.push .accumulator)
  | php => some (.push .status)
  | pla => some (.pull .accumulator)
  | plp => some (.pull .status)
  | bpl => some (.branch .negative false)
  | bmi => some (.branch .negative true)
  | bvc => some (.branch .overflow false)
  | bvs => some (.branch .overflow true)
  | bcc => some (.branch .carry false)
  | bcs => some (.branch .carry true)
  | bne => some (.branch .zero false)
  | beq => some (.branch .zero true)
  | jmp => some .jump
  | jsr => some .call
  | rts => some .leave
  | rti => some .leaveInterrupt
  | brk => some .interrupt
  | anc | ane | arr | las | lxa | rra | sha | shs | shx | shy | sre | sbcAlias | none => .none

end Vcs
