/-!
# Processor Status

The seven status flags as separate truth values.  They are packed into a byte only where the program
can see one, when the status is pushed or pulled; bit 5 of that byte has no flag and is always one.
-/

namespace Vcs

/-- The status flags.  The zero flag is kept inverted, so that the test of a result is stored as is. -/
structure Flags where
  /-- Negative. -/
  n : Bool := false
  /-- Overflow. -/
  v : Bool := false
  /-- Break; it means something only in a pushed status. -/
  b : Bool := false
  /-- Decimal mode. -/
  d : Bool := false
  /-- Interrupts disabled. -/
  i : Bool := false
  /-- The last result was not zero. -/
  notZ : Bool := true
  /-- Carry. -/
  c : Bool := false
  deriving DecidableEq, Repr

/-- Whether bit 7 is set. -/
@[inline]
def signBit (value : UInt8) : Bool :=
  value &&& 0x80 != 0

namespace Flags

/-- Unpacks a status byte. -/
def ofByte (value : UInt8) : Flags where
  n := value &&& 0x80 != 0
  v := value &&& 0x40 != 0
  b := value &&& 0x10 != 0
  d := value &&& 0x08 != 0
  i := value &&& 0x04 != 0
  notZ := value &&& 0x02 == 0
  c := value &&& 0x01 != 0

/-- A mask if the condition holds, otherwise no bits. -/
@[inline]
def bitIf (mask : UInt8) (on : Bool) : UInt8 :=
  if on then mask else 0

/-- Packs the flags into a status byte. -/
def toByte (flags : Flags) : UInt8 :=
  0x20 ||| bitIf 0x80 flags.n ||| bitIf 0x40 flags.v ||| bitIf 0x10 flags.b |||
    bitIf 0x08 flags.d ||| bitIf 0x04 flags.i ||| bitIf 0x02 (!flags.notZ) ||| bitIf 0x01 flags.c

/-- The zero flag. -/
@[inline]
def zero (flags : Flags) : Bool :=
  !flags.notZ

/-- The flags after a result: negative and zero follow the byte, the others stay. -/
@[inline]
def withResult (flags : Flags) (value : UInt8) : Flags :=
  { flags with n := signBit value, notZ := value != 0 }

/-- Flags that an instruction can test or set on its own. -/
inductive Name where
  | carry
  | zero
  | interrupt
  | decimal
  | overflow
  | negative
  deriving DecidableEq, Repr

/-- Reads one flag. -/
def get (flags : Flags) : Name → Bool
  | .carry => flags.c
  | .zero => flags.zero
  | .interrupt => flags.i
  | .decimal => flags.d
  | .overflow => flags.v
  | .negative => flags.n

/-- Sets one flag to a value. -/
def set (flags : Flags) (name : Name) (on : Bool) : Flags :=
  match name with
  | .carry => { flags with c := on }
  | .zero => { flags with notZ := !on }
  | .interrupt => { flags with i := on }
  | .decimal => { flags with d := on }
  | .overflow => { flags with v := on }
  | .negative => { flags with n := on }

@[simp]
theorem ofByte_toByte (flags : Flags) : ofByte flags.toByte = flags := by
  rcases flags with ⟨n, v, b, d, i, z, c⟩
  cases n <;> cases v <;> cases b <;> cases d <;> cases i <;> cases z <;> cases c <;> rfl

end Flags

end Vcs
