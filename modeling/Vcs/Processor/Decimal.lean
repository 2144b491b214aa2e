/-!
# Packed Decimals

A byte in decimal mode holds two digits, tens in the high nibble.  The adder takes nibbles above nine
at face value, so every byte has a number, though only the numbers below one hundred have a byte.
-/

namespace Vcs.Decimal

/-- The number a byte stands for. -/
@[inline]
def unpack (byte : UInt8) : Nat :=
  byte.toNat / 16 * 10 + byte.toNat % 16

/-- The byte of a number modulo one hundred. -/
@[inline]
def pack (n : Nat) : UInt8 :=
  UInt8.ofNat (n % 100 / 10 * 16 + n % 10)

/-- Both nibbles are decimal digits. -/
def IsPacked (byte : UInt8) : Prop :=
  byte.toNat / 16 < 10 ∧ byte.toNat % 16 < 10

theorem toNat_pack (n : Nat) : (pack n).toNat = n % 100 / 10 * 16 + n % 10 := by
  unfold pack
  rw [UInt8.toNat_ofNat']
  omega

theorem isPacked_pack (n : Nat) : IsPacked (pack n) := by
  unfold IsPacked
  rw [toNat_pack]
  omega

@[simp]
theorem unpack_pack (n : Nat) : unpack (pack n) = n % 100 := by
  unfold unpack
  rw [toNat_pack]
  omega

theorem unpack_le {byte : UInt8} (h : IsPacked byte) : unpack byte ≤ 99 := by
  unfold IsPacked at h
  unfold unpack
  omega

end Vcs.Decimal
