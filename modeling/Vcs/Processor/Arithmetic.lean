import Vcs.Processor.Decimal
import Vcs.Processor.Registers

/-!
# Arithmetic Unit

What the instructions do to the registers once their operand is known.  Nothing here touches the bus.
Addition and subtraction have a binary and a decimal form, chosen by the decimal flag; shifts return the
shifted byte beside the registers with their new flags.
-/

namespace Vcs.Registers

/-- The carry flag as a number. -/
@[inline]
def carry (registers : Registers) : Nat :=
  registers.flags.c.toNat

/-- The bit that makes a result's sign wrong: it differs from the signs of both inputs. -/
@[inline]
def signsDiffer (first second result : UInt8) : Bool :=
  signBit ((first ^^^ result) &&& (second ^^^ result))

/-- Adds an operand and the carry in binary. -/
def addBinary (registers : Registers) (value : UInt8) : Registers :=
  let sum := registers.a.toNat + value.toNat + registers.carry
  let result := UInt8.ofNat sum
  { registers with
    a := result
    flags := { registers.flags.withResult result with
      v := signsDiffer registers.a value result
      c := 0xFF < sum } }

/-- Adds an operand and the carry in decimal.  The zero flag shows the binary sum of the two bytes. -/
def addDecimal (registers : Registers) (value : UInt8) : Registers :=
  let sum := Decimal.unpack registers.a + Decimal.unpack value + registers.carry
  let result := Decimal.pack (sum % 256)
  { registers with
    a := result
    flags := { registers.flags with
      n := signBit result
      v := signsDiffer registers.a value result
      notZ := registers.a + value != 0
      c := 99 < sum } }

/-- Adds an operand and the carry. -/
def add (registers : Registers) (value : UInt8) : Registers :=
  if registers.flags.d then registers.addDecimal value else registers.addBinary value

/-- The low byte of the accumulator less an operand and the borrow. -/
@[inline]
def binaryDifference (registers : Registers) (value : UInt8) : UInt8 :=
  registers.a + ~~~value + UInt8.ofNat registers.carry

/-- Subtracts an operand and the borrow in binary; negative and zero stay as they were. -/
def subtractBinary (registers : Registers) (value : UInt8) : Registers :=
  let signed := registers.a.toInt8.toInt + (~~~value).toInt8.toInt + registers.carry
  { registers with
    a := registers.binaryDifference value
    flags := { registers.flags with
      v := !(-128 ≤ signed && signed ≤ 127)
      c := value.toNat + (1 - registers.carry) ≤ registers.a.toNat } }

/-- Subtracts an operand and the borrow in decimal; negative and zero stay as they were. -/
def subtractDecimal (registers : Registers) (value : UInt8) : Registers :=
  let borrow := 1 - registers.carry
  let plain : Int := Decimal.unpack registers.a - Decimal.unpack value - borrow
  let difference := if plain < 0 then plain + 100 else plain
  let result := Decimal.pack (difference % 256).toNat
  { registers with
    a := result
    flags := { registers.flags with
      v := signsDiffer registers.a value result
      c := value.toNat + borrow ≤ registers.a.toNat } }

/-- Subtracts an operand and the borrow.  In decimal the zero flag shows the binary difference. -/
def subtract (registers : Registers) (value : UInt8) : Registers :=
  if registers.flags.d then
    let notZ := registers.binaryDifference value != 0
    let after := registers.subtractDecimal value
    { after with flags := { after.flags with n := signBit after.a, notZ := notZ } }
  else
    let after := registers.subtractBinary value
    { after with flags := after.flags.withResult after.a }

/-- Subtraction as the increment-and-subtract instruction does it: in either mode negative and zero
show the result. -/
def subtractIncremented (registers : Registers) (value : UInt8) : Registers :=
  let after :=
    if registers.flags.d then registers.subtractDecimal value else registers.subtractBinary value
  { after with flags := after.flags.withResult after.a }

/-- Compares a byte with an operand: the flags are those of their difference. -/
def compare (registers : Registers) (register value : UInt8) : Registers :=
  { registers with
    flags := { registers.flags with
      n := signBit (register - value)
      notZ := register != value
      c := value ≤ register } }

/-- Tests the bits of an operand that the accumulator selects. -/
def testBits (registers : Registers) (value : UInt8) : Registers :=
  { registers with
    flags := { registers.flags with
      n := signBit value
      v := value &&& 0x40 != 0
      notZ := registers.a &&& value != 0 } }

/-- Loads X with the accumulator masked by X, less an operand. -/
def subtractFromMasked (registers : Registers) (value : UInt8) : Registers :=
  let masked := registers.a &&& registers.x
  { registers with
    x := masked - value
    flags := { registers.flags.withResult (masked - value) with c := value ≤ masked } }

/-- Masks the accumulator and shifts it right. -/
def andShiftRight (registers : Registers) (value : UInt8) : Registers :=
  let masked := value &&& registers.a
  { registers with
    a := masked >>> 1
    flags := { registers.flags.withResult (masked >>> 1) with c := masked &&& 1 != 0 } }

/-- The registers after a byte has been shifted to `result` and `out` has fallen off its end. -/
@[inline]
def shifted (registers : Registers) (result : UInt8) (out : Bool) : UInt8 × Registers :=
  (result, { registers with flags := { registers.flags.withResult result with c := out } })

def shiftLeft (registers : Registers) (value : UInt8) : UInt8 × Registers :=
  registers.shifted (value <<< 1) (signBit value)

def shiftRight (registers : Registers) (value : UInt8) : UInt8 × Registers :=
  registers.shifted (value >>> 1) (value &&& 1 != 0)

def rotateLeft (registers : Registers) (value : UInt8) : UInt8 × Registers :=
  registers.shifted ((value <<< 1) ||| Flags.bitIf 0x01 registers.flags.c) (signBit value)

def rotateRight (registers : Registers) (value : UInt8) : UInt8 × Registers :=
  registers.shifted ((value >>> 1) ||| Flags.bitIf 0x80 registers.flags.c) (value &&& 1 != 0)

def increment (registers : Registers) (value : UInt8) : UInt8 × Registers :=
  (value + 1, { registers with flags := registers.flags.withResult (value + 1) })

def decrement (registers : Registers) (value : UInt8) : UInt8 × Registers :=
  (value - 1, { registers with flags := registers.flags.withResult (value - 1) })

/-- Decrements a byte and compares the accumulator with it. -/
def decrementCompare (registers : Registers) (value : UInt8) : UInt8 × Registers :=
  (value - 1, registers.compare registers.a (value - 1))

/-- Increments a byte and subtracts it from the accumulator. -/
def incrementSubtract (registers : Registers) (value : UInt8) : UInt8 × Registers :=
  (value + 1, registers.subtractIncremented (value + 1))

/-- Shifts a byte left and joins it to the accumulator. -/
def shiftLeftOr (registers : Registers) (value : UInt8) : UInt8 × Registers :=
  let (result, after) := registers.shiftLeft value
  (result, after.loadA (after.a ||| result))

/-- Rotates a byte left and masks the accumulator with it. -/
def rotateLeftAnd (registers : Registers) (value : UInt8) : UInt8 × Registers :=
  let result := (value <<< 1) ||| Flags.bitIf 0x01 registers.flags.c
  let after := registers.loadA (registers.a &&& result)
  (result, { after with flags := { after.flags with c := signBit value } })

end Vcs.Registers
