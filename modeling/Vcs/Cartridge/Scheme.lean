/-!
# Bank Schemes

How a cartridge puts more memory than fits into the 4 KiB it has in the address space.  Most schemes swap
the whole window when one of a few addresses near its top is touched.  The 3F scheme swaps the lower half
of the window on writes to the bottom of memory and keeps the upper half on the last slice.
-/

namespace Vcs

/-- How a cartridge maps its memory. -/
inductive BankScheme where
  /-- 2 KiB, repeated throughout the window. -/
  | twoK
  /-- 4 KiB, no switching. -/
  | fourK
  /-- Two banks of 4 KiB; `swapped` images hold the power-on bank first. -/
  | f8 (swapped : Bool)
  /-- Four banks of 4 KiB. -/
  | f6
  /-- Eight banks of 4 KiB. -/
  | f4
  /-- Slices of 2 KiB, selected by writes to the first 64 bytes of the address space. -/
  | threeF (slices : Nat)
  deriving DecidableEq, Repr

/-- A cartridge that cannot be mapped. -/
inductive CartridgeError where
  | unsupportedSize (size : Nat)
  | sizeMismatch (scheme : BankScheme) (expected actual : Nat)
  deriving DecidableEq, Repr

namespace BankScheme

/-- Bytes of a bank. -/
abbrev bankSize : Nat := 4096

/-- Bytes of a slice. -/
abbrev sliceSize : Nat := 2048

/-- Slice numbers are one byte. -/
abbrev maxSlices : Nat := 256

def name : BankScheme → String
  | twoK => "2K"
  | fourK => "4K"
  | f8 false => "F8"
  | f8 true => "F8 (swapped)"
  | f6 => "F6"
  | f4 => "F4"
  | threeF _ => "3F"

/-- Size of the image that the scheme maps. -/
def romSize : BankScheme → Nat
  | twoK => 2048
  | fourK => 4096
  | f8 _ => 8192
  | f6 => 16384
  | f4 => 32768
  | threeF slices => slices * sliceSize

/-- Banks, or slices, that can be selected. -/
def bankCount : BankScheme → Nat
  | twoK | fourK => 1
  | f8 _ => 2
  | f6 => 4
  | f4 => 8
  | threeF slices => slices

/-- Offset in the window of the address that selects bank zero, for schemes that switch on addresses. -/
def firstHotspot? : BankScheme → Option Nat
  | twoK | fourK | threeF _ => none
  | f8 _ => some 0xFF8
  | f6 => some 0xFF6
  | f4 => some 0xFF4

/-- The bank mapped at power-on. -/
def resetBank : BankScheme → Nat
  | f8 false => 1
  | _ => 0

/-- The bank that touching an offset of the window selects. -/
def hotspot? (scheme : BankScheme) (offset : Nat) : Option Nat :=
  match scheme.firstHotspot? with
  | none => none
  | some first =>
    if first ≤ offset ∧ offset - first < scheme.bankCount then some (offset - first) else none

/-- Whether the first `half` bytes of an image equal the `half` bytes after them. -/
def halvesEqual (image : ByteArray) (half : Nat) : Bool :=
  (List.range half).all fun i ↦ image.get! i == image.get! (half + i)

/-- Offsets at which an image stores the accumulator to address `0x3F`. -/
def storesTo3F (image : ByteArray) : Nat :=
  (List.range (image.size - 1)).countP fun i ↦ image.get! i == 0x85 && image.get! (i + 1) == 0x3F

/-- The slices of an image of `size` bytes, if the 3F scheme can map it. -/
def slices? (size : Nat) : Option Nat :=
  let slices := size / sliceSize
  if bankSize < size ∧ size % sliceSize = 0 ∧ slices ≤ maxSlices then some slices else none

/-- The slices of an image that looks like one of the 3F scheme: it switches slices at least twice. -/
def detectSlices? (image : ByteArray) : Option Nat :=
  match slices? image.size with
  | none => none
  | some slices => if 2 ≤ storesTo3F image then some slices else none

/-- The scheme of an image that fits no particular pattern, by its size. -/
def ofSize (size : Nat) : Except CartridgeError BankScheme :=
  match size with
  | 8192 => .ok (f8 false)
  | 16384 => .ok f6
  | 32768 => .ok f4
  | _ => .error (.unsupportedSize size)

/-- Guesses the scheme from the image alone.  An image made of two equal halves counts as one half. -/
def detect (image : ByteArray) : Except CartridgeError BankScheme :=
  if image.size = 2048 then .ok twoK
  else if image.size = 4096 then .ok (if halvesEqual image 2048 then twoK else fourK)
  else if image.size = 8192 ∧ halvesEqual image 4096 then .ok fourK
  else
    match detectSlices? image with
    | some slices => .ok (threeF slices)
    | none => ofSize image.size

end BankScheme

namespace CartridgeError

def message : CartridgeError → String
  | unsupportedSize size => s!"unsupported cartridge size: {size} bytes"
  | sizeMismatch scheme expected actual =>
    let name := scheme.name
    s!"{name} cartridges need {expected} bytes, got {actual}"

end CartridgeError

end Vcs
