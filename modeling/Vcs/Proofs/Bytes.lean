import Vcs.Processor.Registers

/-!
# Bytes and Words

A word as the number of its two bytes, a sign as a bound on the number of a byte, and a way to check all bytes.
Bytes also stand for numbers in two's complement, and so do any more of them.
-/

namespace Vcs

/-- What is checked of all 256 bytes holds of every byte. -/
theorem forall_byte {p : UInt8 → Prop} (h : ∀ number : Fin 256, p (UInt8.ofNat number))
    (byte : UInt8) : p byte := by
  have hbyte := h ⟨byte.toNat, byte.toNat_lt⟩
  rwa [UInt8.ofNat_toNat] at hbyte

theorem toNat_decide (p : Prop) [Decidable p] : (decide p).toNat = if p then 1 else 0 := by
  by_cases h : p <;> simp [h]

theorem toNat_highByte (word : UInt16) : (highByte word).toNat = word.toNat / 256 := by
  have hword := word.toNat_lt
  have hshift : (word >>> 8).toNat = word.toNat / 256 := by
    simp [UInt16.toNat_shiftRight, Nat.shiftRight_eq_div_pow]
  rw [highByte, UInt16.toNat_toUInt8, hshift]
  omega

theorem toNat_lowByte (word : UInt16) : (lowByte word).toNat = word.toNat % 256 := by
  simp [lowByte]

theorem toNat_wordOf (low high : UInt8) : (wordOf low high).toNat = high.toNat * 256 + low.toNat := by
  have hhigh := high.toNat_lt
  have hshift : (high.toUInt16 <<< 8).toNat = high.toNat <<< 8 := by
    rw [UInt16.toNat_shiftLeft, UInt8.toNat_toUInt16]
    change high.toNat <<< 8 % 2 ^ 16 = high.toNat <<< 8
    rw [Nat.shiftLeft_eq]
    omega
  rw [wordOf, UInt16.toNat_or, hshift, UInt8.toNat_toUInt16,
    ← Nat.shiftLeft_add_eq_or_of_lt low.toNat_lt, Nat.shiftLeft_eq]

@[simp]
theorem wordOf_lowByte_highByte (word : UInt16) : wordOf (lowByte word) (highByte word) = word := by
  rw [← UInt16.toNat_inj, toNat_wordOf, toNat_lowByte, toNat_highByte]
  omega

@[simp]
theorem highByte_wordOf (low high : UInt8) : highByte (wordOf low high) = high := by
  have hlow := low.toNat_lt
  rw [← UInt8.toNat_inj, toNat_highByte, toNat_wordOf]
  omega

@[simp]
theorem lowByte_wordOf (low high : UInt8) : lowByte (wordOf low high) = low := by
  have hlow := low.toNat_lt
  rw [← UInt8.toNat_inj, toNat_lowByte, toNat_wordOf]
  omega

theorem signBit_eq (byte : UInt8) : signBit byte = decide (128 ≤ byte.toNat) :=
  forall_byte (p := fun byte ↦ signBit byte = decide (128 ≤ byte.toNat)) (by decide +kernel) byte

/-- What a number below a modulus stands for in two's complement. -/
def signedOf (modulus value : Nat) : Int :=
  if 2 * value < modulus then value else value - modulus

/-- Numbers that two's complement has room for. -/
def FitsSigned (modulus : Nat) (value : Int) : Prop :=
  -(modulus : Int) ≤ 2 * value ∧ 2 * value < modulus

instance (modulus : Nat) (value : Int) : Decidable (FitsSigned modulus value) :=
  inferInstanceAs (Decidable (_ ∧ _))

theorem signedOf_neg_iff {modulus value : Nat} (h : value < modulus) :
    signedOf modulus value < 0 ↔ modulus ≤ 2 * value := by
  unfold signedOf
  split <;> omega

section

variable {modulus low : Nat} (heven : 2 ∣ modulus) (hlow : low < 256)

include heven hlow

/-- One more byte below a number in two's complement. -/
theorem signedOf_append (high : Nat) :
    signedOf (256 * modulus) (low + 256 * high) = low + 256 * signedOf modulus high := by
  obtain ⟨half, rfl⟩ := heven
  unfold signedOf
  split <;> split <;> omega

/-- A byte more below a number does not decide whether there is room for it. -/
theorem fitsSigned_append (high : Int) :
    FitsSigned (256 * modulus) (low + 256 * high) ↔ FitsSigned modulus high := by
  obtain ⟨half, rfl⟩ := heven
  unfold FitsSigned
  omega

theorem le_two_mul_append (high : Nat) :
    256 * modulus ≤ 2 * (low + 256 * high) ↔ modulus ≤ 2 * high := by
  obtain ⟨half, rfl⟩ := heven
  omega

end

theorem toInt_toInt8 (byte : UInt8) : byte.toInt8.toInt = signedOf 256 byte.toNat :=
  forall_byte (p := fun byte ↦ byte.toInt8.toInt = signedOf 256 byte.toNat) (by decide +kernel) byte

theorem signedOf_not (byte : UInt8) :
    signedOf 256 (~~~byte).toNat = -1 - signedOf 256 byte.toNat := by
  have hbyte := byte.toNat_lt
  have hnot : (~~~byte).toNat = 255 - byte.toNat := UInt8.toNat_not byte
  rw [hnot, signedOf, signedOf]
  split <;> split <;> omega

theorem signBit_eq_testBit (byte : UInt8) : signBit byte = byte.toNat.testBit 7 :=
  forall_byte (p := fun byte ↦ signBit byte = byte.toNat.testBit 7) (by decide +kernel) byte

theorem signBit_and (first second : UInt8) :
    signBit (first &&& second) = (signBit first && signBit second) := by
  simp only [signBit_eq_testBit, UInt8.toNat_and, Nat.testBit_and]

theorem signBit_xor (first second : UInt8) :
    signBit (first ^^^ second) = (signBit first != signBit second) := by
  simp only [signBit_eq_testBit, UInt8.toNat_xor, Nat.testBit_xor]

end Vcs
