/-!
# Hexadecimal Text

Numbers written as a fixed count of upper-case hexadecimal digits, most significant digit first.
A number too large for its width loses its upper digits, so every text of one width has one length.
-/

namespace Vcs.Text.Hex

/-- The digit of the lowest four bits. -/
def digit (n : Nat) : Char :=
  let d := n % 16
  if d < 10 then Char.ofNat ('0'.toNat + d) else Char.ofNat ('A'.toNat + (d - 10))

/-- The lowest `width` digits of `n`. -/
def digits : (width : Nat) → (n : Nat) → List Char
  | 0, _ => []
  | width + 1, n => digit (n >>> (4 * width)) :: digits width n

/-- The lowest `width` digits of `n` as text. -/
def fixed (width n : Nat) : String :=
  String.ofList (digits width n)

/-- A byte as two digits. -/
def byte (value : UInt8) : String :=
  fixed 2 value.toNat

/-- A word as four digits. -/
def word (value : UInt16) : String :=
  fixed 4 value.toNat

/-- Two digits for every byte, in order and without separators. -/
def bytes (data : ByteArray) : String :=
  data.foldl (fun text value ↦ text ++ byte value) ""

@[simp]
theorem length_digits (width n : Nat) : (digits width n).length = width := by
  induction width with
  | zero => rfl
  | succ width ih => simp [digits, ih]

end Vcs.Text.Hex
