import Vcs.Proofs.Processor.ByteArithmetic

/-!
# The Zero Flag in Decimal Mode

In decimal mode the zero flag of a subtraction is that of the same subtraction in binary.  The zero flag of an
addition need not be: it shows the binary sum of the two bytes without the carry that comes in.  Main statement:
on any bus and in any addressing mode, the exact condition under which an addition or a subtraction in decimal
mode leaves the zero flag that it leaves out of it.
-/

namespace Vcs

/-- The registers in decimal mode, or out of it. -/
def Registers.inMode (r : Registers) (decimal : Bool) : Registers :=
  { r with flags := { r.flags with d := decimal } }

namespace Carrying

variable (kind : Carrying) {r : Registers} (value : UInt8)

/-- Out of decimal mode the flag shows the result, and so the exact result to the base 256. -/
theorem apply_zero (hmode : r.flags.d = false) :
    (kind.apply r value).flags.zero = true ↔
      (kind.total r.a.toNat value.toNat + kind.carried r.flags.c) % 256 = 0 := by
  have hdigit := kind.apply_digit r value (fun h ↦ by simp [hmode] at h)
    (fun h ↦ by simp [hmode] at h)
  rw [hmode] at hdigit
  change ((kind.apply r value).a.toNat : Int) + 256 * _ = kind.total r.a.toNat value.toNat + _ at hdigit
  have hshows : (kind.apply r value).flags.zero = !((kind.apply r value).a != 0) := by
    cases kind <;> simp only [apply, Registers.add, Registers.subtract, hmode] <;> rfl
  have hlt := (kind.apply r value).a.toNat_lt
  rw [hshows, ← hdigit, Bool.not_eq_true', bne_eq_false_iff_eq, ← UInt8.toNat_inj]
  simp only [UInt8.toNat_zero]
  omega

/-- The subtraction has the flag in common between the modes. -/
theorem apply_difference_zero (hmode : r.flags.d = true) :
    (difference.apply r value).flags.zero = (difference.apply (r.inMode false) value).flags.zero := by
  simp only [apply, Registers.subtract, hmode]
  rfl

/-- What the flag of a subtraction shows in either mode. -/
theorem difference_zero (r : Registers) :
    (difference.apply r value).flags.zero = true ↔
      ((r.a.toNat : Int) - value.toNat + (r.carry - 1)) % 256 = 0 := by
  rcases hmode : r.flags.d with _ | _
  · exact difference.apply_zero value hmode
  · rw [apply_difference_zero value hmode]
    exact difference.apply_zero value rfl

/-- The addition leaves out the carry in decimal mode. -/
theorem apply_sum_zero (hmode : r.flags.d = true) :
    (sum.apply r value).flags.zero = true ↔ (r.a.toNat + value.toNat) % 256 = 0 := by
  have hshows : (sum.apply r value).flags.zero = !(r.a + value != 0) := by
    simp only [apply, Registers.add, hmode]
    rfl
  rw [hshows, Bool.not_eq_true', bne_eq_false_iff_eq, ← UInt8.toNat_inj, UInt8.toNat_add]
  rfl

end Carrying

namespace Processor

variable {β : Type} [Bus β]

/-- The processor in decimal mode, or out of it. -/
def inMode (p : Processor β) (decimal : Bool) : Processor β :=
  { p with registers := p.registers.inMode decimal }

theorem readIndexed_inMode (p : Processor β) (base : UInt16) (index : UInt8) (decimal : Bool) :
    (p.inMode decimal).readIndexed base index = (p.readIndexed base index).inMode decimal := by
  unfold readIndexed
  split <;> rfl

/-- The way to an operand does not depend on the mode. -/
theorem readOperand_inMode (p : Processor β) (mode : AddressingMode) (decimal : Bool) :
    (p.inMode decimal).readOperand mode = (p.readOperand mode).inMode decimal := by
  cases mode with
  | absoluteX | absoluteY =>
    exact readIndexed_inMode p.fetchPair.2 (wordOf p.fetchPair.1 p.fetchPair.2.latch) _ decimal
  | indirectY =>
    let pair := p.fetch.peekPair p.fetch.latch
    exact readIndexed_inMode pair.2 (wordOf pair.1 pair.2.latch) _ decimal
  | _ => rfl

theorem operand_inMode (p : Processor β) (decimal : Bool) : (p.inMode decimal).operand = p.operand := by
  have hfound := p.fetchOpcode.readOperand_inMode p.instruction.mode decimal
  change ((p.fetchOpcode.inMode decimal).readOperand p.instruction.mode).latch = p.operand
  rw [hfound]
  rfl

/-- An addition or a subtraction in decimal mode, beside the same one out of it.  The two leave the same zero
flag unless it is an addition with a carry to bring in, and the sum of the bytes is zero with it or without it. -/
theorem decimal_zero_iff {p : Processor β} {kind : Carrying} (hmode : p.registers.flags.d = true)
    (hmnemonic : p.instruction.mnemonic = kind.mnemonic) :
    let plain := p.inMode false
    let a := p.registers.a.toNat
    let value := p.operand.toNat
    (∃ cycles, p.step.1 = .ok cycles) ∧ (∃ cycles, plain.step.1 = .ok cycles) ∧
      (plain.step.2.registers.flags.zero = true ↔
        (kind.total a value + kind.carried p.registers.flags.c) % 256 = 0) ∧
      (kind = .sum → (p.step.2.registers.flags.zero = true ↔ (a + value) % 256 = 0)) ∧
      (p.step.2.registers.flags.zero = plain.step.2.registers.flags.zero ↔
        (kind = .sum → p.registers.flags.c = true →
          (a + value) % 256 ≠ 0 ∧ (a + value) % 256 ≠ 255)) := by
  intro plain a value
  obtain ⟨hdone, -, hflags⟩ := step_of_carrying hmnemonic
  have hplain : plain.instruction.mnemonic = kind.mnemonic := hmnemonic
  obtain ⟨hplainDone, -, hplainFlags⟩ := step_of_carrying hplain
  rw [operand_inMode] at hplainFlags
  have hbinary := kind.apply_zero (r := plain.registers) p.operand rfl
  rw [← hplainFlags] at hbinary
  refine ⟨hdone, hplainDone, hbinary, ?_, ?_⟩
  · rintro rfl
    rw [hflags]
    exact Carrying.apply_sum_zero p.operand hmode
  · cases kind with
    | sum =>
      have hdecimal := Carrying.apply_sum_zero p.operand hmode
      rw [← hflags] at hdecimal
      change _ ↔ ((a : Int) + value + (p.registers.flags.c.toNat : Int)) % 256 = 0 at hbinary
      rw [Bool.eq_iff_iff, hdecimal, hbinary]
      cases p.registers.flags.c <;> simp <;> omega
    | difference =>
      rw [hflags, hplainFlags]
      exact iff_of_true (Carrying.apply_difference_zero p.operand hmode) nofun

/-- The borrow counts: in decimal mode as in binary, sixteen less fifteen and one more is nothing. -/
theorem decimal_zero_iff_of_borrow :
    let memory : FlatMemory := { bytes := ⟨#[0xE9, 0x0F]⟩ }
    let p : Processor FlatMemory := { registers := { a := 0x10, flags := { d := true } }, bus := memory }
    p.step.2.registers.flags.zero = (p.inMode false).step.2.registers.flags.zero ∧
      (p.inMode false).step.2.registers.flags.zero = true := by
  intro memory p
  obtain ⟨-, -, hbinary, -, hiff⟩ :=
    @decimal_zero_iff _ _ p .difference rfl (by decide +kernel)
  exact ⟨hiff.mpr nofun, hbinary.mpr (by decide +kernel)⟩

/-- Nothing is added to nothing but the carry.  The result in decimal mode is one and the zero flag is set. -/
theorem decimal_zero_drops_carry :
    let memory : FlatMemory := { bytes := ⟨#[0x69, 0x00]⟩ }
    let p : Processor FlatMemory := { registers := { flags := { d := true, c := true } }, bus := memory }
    p.instruction.mnemonic = .adc ∧
      (p.registers.a.toNat + p.operand.toNat + p.registers.carry) % 256 = 1 ∧
      p.step.2.registers.a = 1 ∧ p.step.2.registers.flags.zero = true ∧
      (p.inMode false).step.2.registers.flags.zero = false := by
  decide +kernel

end Processor

end Vcs
