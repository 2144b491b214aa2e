/-!
# Checksums

The two checksums of a PNG file: CRC-32 guards every chunk, and Adler-32 guards the pixel data before
compression.
-/

namespace Vcs.Picture

namespace Crc32

/-- The reflected generator polynomial. -/
abbrev polynomial : UInt32 := 0xEDB88320

/-- The register after `count` zero bits have been shifted in. -/
def shifted (register : UInt32) : (count : Nat) → UInt32
  | 0 => register
  | count + 1 =>
    let register := shifted register count
    if register &&& 1 = 0 then register >>> 1 else (register >>> 1) ^^^ polynomial

/-- Every byte shifted through an empty register. -/
def table : Vector UInt32 256 :=
  .ofFn fun byte ↦ shifted (UInt32.ofNat byte) 8

/-- Takes a byte into the register. -/
def update (register : UInt32) (byte : UInt8) : UInt32 :=
  have := (register.toUInt8 ^^^ byte).toNat_lt
  table[(register.toUInt8 ^^^ byte).toNat] ^^^ (register >>> 8)

/-- The checksum of some bytes. -/
def checksum (data : ByteArray) : UInt32 :=
  ~~~data.foldl update 0xFFFFFFFF

end Crc32

namespace Adler32

/-- The largest prime below `2 ^ 16`. -/
abbrev modulus : UInt32 := 65521

/-- Takes a byte into the sum of the bytes and the sum of those sums. -/
def update (sums : UInt32 × UInt32) (byte : UInt8) : UInt32 × UInt32 :=
  let plain := (sums.1 + byte.toUInt32) % modulus
  (plain, (sums.2 + plain) % modulus)

/-- The checksum of some bytes. -/
def checksum (data : ByteArray) : UInt32 :=
  let (plain, weighted) := data.foldl update (1, 0)
  (weighted <<< 16) ||| plain

end Adler32

end Vcs.Picture
