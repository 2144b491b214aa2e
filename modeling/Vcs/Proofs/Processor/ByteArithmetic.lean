import Vcs.Proofs.Bytes
import Vcs.Proofs.Processor.Effect

/-!
# Addition and Subtraction of a Byte

A byte is a digit: to the base 256 in binary mode, to the base 100 in decimal mode if it holds two decimal
digits.  Addition and subtraction are arithmetic to that base, with what the carry flag brings in and what it
takes on to the next digit; a clear flag is a borrow.  In binary mode the overflow flag tells whether the result
in two's complement has left the range of a byte.
-/

namespace Vcs

/-- Arithmetic that carries from one byte to the next. -/
inductive Carrying where
  | sum
  | difference
  deriving DecidableEq, Repr

namespace Carrying

/-- The instruction that does it for one byte. -/
def mnemonic : Carrying → Mnemonic
  | sum => .adc
  | difference => .sbc

/-- What it makes of the registers. -/
def apply (kind : Carrying) (r : Registers) (value : UInt8) : Registers :=
  match kind with
  | sum => r.add value
  | difference => r.subtract value

/-- The exact result. -/
def total (kind : Carrying) (first second : Int) : Int :=
  match kind with
  | sum => first + second
  | difference => first - second

/-- What a carry flag adds to the result.  A borrow is a flag that is clear. -/
def carried (kind : Carrying) (flag : Bool) : Int :=
  match kind with
  | sum => flag.toNat
  | difference => flag.toNat - 1

end Carrying

/-- The number of values of a digit. -/
def digitBase (decimal : Bool) : Nat :=
  if decimal then 100 else 256

/-- The digit that a byte is. -/
def digit (decimal : Bool) (byte : UInt8) : Nat :=
  if decimal then Decimal.unpack byte else byte.toNat

/-- A byte is a digit of the mode: any in binary, a packed one in decimal. -/
def IsDigit (decimal : Bool) (byte : UInt8) : Prop :=
  decimal = true → Decimal.IsPacked byte

theorem digit_lt {decimal : Bool} {byte : UInt8} (h : IsDigit decimal byte) :
    digit decimal byte < digitBase decimal := by
  cases decimal with
  | false => exact byte.toNat_lt
  | true =>
    obtain ⟨htens, hones⟩ := h rfl
    simp only [digit, digitBase, Decimal.unpack, if_true]
    omega

namespace Registers

variable (r : Registers) (value : UInt8)

theorem carry_le : r.carry ≤ 1 :=
  Bool.toNat_le r.flags.c

theorem addBinary_digit :
    ((r.addBinary value).a.toNat : Int) + 256 * (r.addBinary value).flags.c.toNat =
      r.a.toNat + value.toNat + r.carry := by
  have hfirst := r.a.toNat_lt
  have hsecond := value.toNat_lt
  have hin := r.carry_le
  simp only [addBinary, UInt8.toNat_ofNat', toNat_decide]
  split <;> omega

theorem toNat_binaryDifference :
    (r.binaryDifference value).toNat = (r.a.toNat + (255 - value.toNat) + r.carry) % 256 := by
  have hin := r.carry_le
  have hnot : (~~~value).toNat = 255 - value.toNat := UInt8.toNat_not value
  simp only [binaryDifference, UInt8.toNat_add, UInt8.toNat_ofNat', hnot]
  omega

theorem subtractBinary_digit :
    ((r.subtractBinary value).a.toNat : Int) + 256 * ((r.subtractBinary value).flags.c.toNat - 1) =
      r.a.toNat - value.toNat + (r.carry - 1) := by
  have hfirst := r.a.toNat_lt
  have hsecond := value.toNat_lt
  have hin := r.carry_le
  simp only [subtractBinary, toNat_binaryDifference, toNat_decide]
  split <;> omega

variable {r value}

section

variable (hfirst : Decimal.IsPacked r.a) (hsecond : Decimal.IsPacked value)

include hfirst hsecond

theorem addDecimal_digit :
    (Decimal.unpack (r.addDecimal value).a : Int) + 100 * (r.addDecimal value).flags.c.toNat =
      Decimal.unpack r.a + Decimal.unpack value + r.carry := by
  have hin := r.carry_le
  have hleft := Decimal.unpack_le hfirst
  have hright := Decimal.unpack_le hsecond
  simp only [addDecimal, Decimal.unpack_pack, toNat_decide]
  split <;> omega

/-- The borrow is found by comparing the packed bytes, which are in the order of their numbers. -/
theorem subtractDecimal_digit :
    (Decimal.unpack (r.subtractDecimal value).a : Int) +
        100 * ((r.subtractDecimal value).flags.c.toNat - 1) =
      Decimal.unpack r.a - Decimal.unpack value + (r.carry - 1) := by
  have hin := r.carry_le
  have hleft := Decimal.unpack_le hfirst
  have hright := Decimal.unpack_le hsecond
  have hborrow : value.toNat + (1 - r.carry) ≤ r.a.toNat ↔
      Decimal.unpack value + (1 - r.carry) ≤ Decimal.unpack r.a := by
    unfold Decimal.IsPacked at hfirst hsecond
    simp only [Decimal.unpack]
    omega
  simp only [subtractDecimal, Decimal.unpack_pack, toNat_decide, hborrow]
  split <;> split <;> omega

end

theorem signsDiffer_eq (first second result : UInt8) :
    signsDiffer first second result =
      ((signBit first != signBit result) && (signBit second != signBit result)) := by
  rw [signsDiffer, signBit_and, signBit_xor, signBit_xor]

/-- The signs of both inputs differ from that of the result if and only if the exact sum does not fit. -/
theorem addBinary_overflow :
    (r.addBinary value).flags.v = true ↔
      ¬FitsSigned 256 (signedOf 256 r.a.toNat + signedOf 256 value.toNat + r.carry) := by
  have hfirst := r.a.toNat_lt
  have hsecond := value.toNat_lt
  have hin := r.carry_le
  have hresult : (UInt8.ofNat (r.a.toNat + value.toNat + r.carry)).toNat =
      (r.a.toNat + value.toNat + r.carry) % 256 := UInt8.toNat_ofNat'
  simp only [addBinary, signsDiffer_eq, signBit_eq, hresult, signedOf, FitsSigned, Bool.and_eq_true,
    bne_iff_ne, ne_eq, decide_eq_decide]
  split <;> split <;> omega

theorem subtractBinary_overflow :
    (r.subtractBinary value).flags.v = true ↔
      ¬FitsSigned 256 (signedOf 256 r.a.toNat - signedOf 256 value.toNat + (r.carry - 1)) := by
  simp only [subtractBinary, toInt_toInt8, signedOf_not, FitsSigned, Bool.not_eq_true',
    ← Bool.not_eq_true, Bool.and_eq_true, decide_eq_true_eq]
  omega

end Registers

namespace Carrying

variable (kind : Carrying) (r : Registers) (value : UInt8)

/-- In either mode the result is exact in its digit and the carry out of it. -/
theorem apply_digit (hfirst : IsDigit r.flags.d r.a) (hsecond : IsDigit r.flags.d value) :
    (digit r.flags.d (kind.apply r value).a : Int) +
        digitBase r.flags.d * kind.carried (kind.apply r value).flags.c =
      kind.total (digit r.flags.d r.a) (digit r.flags.d value) + kind.carried r.flags.c := by
  rcases hmode : r.flags.d with _ | _
  · cases kind with
    | sum =>
      simp only [apply, Registers.add, hmode]
      exact r.addBinary_digit value
    | difference =>
      simp only [apply, Registers.subtract, hmode]
      exact r.subtractBinary_digit value
  · rw [hmode] at hfirst hsecond
    cases kind with
    | sum =>
      simp only [apply, Registers.add, hmode]
      exact Registers.addDecimal_digit (hfirst rfl) (hsecond rfl)
    | difference =>
      simp only [apply, Registers.subtract, hmode]
      exact Registers.subtractDecimal_digit (hfirst rfl) (hsecond rfl)

/-- A result in decimal mode is packed, whatever it comes from. -/
theorem apply_isDigit : IsDigit r.flags.d (kind.apply r value).a := by
  intro hmode
  cases kind with
  | sum =>
    simp only [apply, Registers.add, hmode]
    exact Decimal.isPacked_pack _
  | difference =>
    simp only [apply, Registers.subtract, hmode]
    exact Decimal.isPacked_pack _

theorem apply_mode : (kind.apply r value).flags.d = r.flags.d := by
  rcases hmode : r.flags.d with _ | _ <;> cases kind <;>
    simp only [apply, Registers.add, Registers.subtract, hmode] <;> exact hmode

theorem apply_negative : (kind.apply r value).flags.n = signBit (kind.apply r value).a := by
  rcases hmode : r.flags.d with _ | _ <;> cases kind <;>
    simp only [apply, Registers.add, Registers.subtract, hmode] <;> rfl

theorem apply_overflow (hmode : r.flags.d = false) :
    (kind.apply r value).flags.v = true ↔ ¬FitsSigned 256
      (kind.total (signedOf 256 r.a.toNat) (signedOf 256 value.toNat) + kind.carried r.flags.c) := by
  cases kind with
  | sum =>
    simp only [apply, Registers.add, hmode]
    exact Registers.addBinary_overflow
  | difference =>
    simp only [apply, Registers.subtract, hmode]
    exact Registers.subtractBinary_overflow

end Carrying

/-- An instruction that adds or subtracts its operand. -/
theorem Processor.step_of_carrying {β : Type} [Bus β] {p : Processor β} {kind : Carrying}
    (h : p.instruction.mnemonic = kind.mnemonic) :
    (∃ cycles, p.step.1 = .ok cycles) ∧ p.step.2.registers.a = (kind.apply p.registers p.operand).a ∧
      p.step.2.registers.flags = (kind.apply p.registers p.operand).flags := by
  cases kind with
  | sum =>
    have hoperation : p.instruction.mnemonic.operation = some (.read .add) := by rw [h]; rfl
    refine ⟨(step_of_some hoperation).1, ?_⟩
    rw [step_registers_of_read hoperation]
    exact ⟨rfl, rfl⟩
  | difference =>
    have hoperation : p.instruction.mnemonic.operation = some (.read .subtract) := by rw [h]; rfl
    refine ⟨(step_of_some hoperation).1, ?_⟩
    rw [step_registers_of_read hoperation]
    exact ⟨rfl, rfl⟩

end Vcs
