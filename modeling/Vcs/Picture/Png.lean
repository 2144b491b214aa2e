import Vcs.Picture.Checksum
import Vcs.Picture.Deflate

/-!
# PNG Files

Pictures of `0xRRGGBB` pixels and the PNG file of a picture: eight bits for each of red, green and blue,
no interlacing.  A pixel is written as its difference to the one on its left, so that an even stretch
becomes a run of zeros.
-/

namespace Vcs

/-- Pixels in rows from the top, each row from the left. -/
structure Picture where
  width : Nat
  height : Nat
  pixels : Array UInt32

namespace Picture

/-- Whether the picture has a pixel at every place, and has a place. -/
def complete (picture : Picture) : Bool :=
  0 < picture.width && 0 < picture.height &&
    picture.pixels.size == picture.width * picture.height

/-- A number as four bytes, the highest first. -/
def bigEndian (value : UInt32) : ByteArray :=
  ⟨#[(value >>> 24).toUInt8, (value >>> 16).toUInt8, (value >>> 8).toUInt8, value.toUInt8]⟩

/-- A chunk: its length, its kind and contents, and their checksum. -/
def chunk (kind : String) (contents : ByteArray) : ByteArray :=
  let body := kind.toUTF8 ++ contents
  bigEndian (UInt32.ofNat contents.size) ++ body ++ bigEndian (Crc32.checksum body)

/-- The bytes every PNG file starts with. -/
def signature : ByteArray :=
  ⟨#[0x89, 0x50, 0x4E, 0x47, 0x0D, 0x0A, 0x1A, 0x0A]⟩

/-- The chunk that tells size and format. -/
def header (picture : Picture) : ByteArray :=
  chunk "IHDR" <|
    bigEndian (UInt32.ofNat picture.width) ++ bigEndian (UInt32.ofNat picture.height) ++
      ⟨#[8, 2, 0, 0, 0]⟩

/-- Red, green and blue of a pixel. -/
def channels (pixel : UInt32) : List UInt8 :=
  [(pixel >>> 16).toUInt8, (pixel >>> 8).toUInt8, pixel.toUInt8]

/-- The channels of a row of pixels. -/
def row (picture : Picture) (i : Nat) : List UInt8 :=
  (picture.pixels.extract (i * picture.width) ((i + 1) * picture.width)).toList.flatMap channels

/-- A row behind the number of its filter, which is none. -/
def plainRow (row : List UInt8) : List UInt8 :=
  0 :: row

/-- The differences of a row to the pixel on the left, behind the number of this filter. -/
def differenceRow (row : List UInt8) : List UInt8 :=
  1 :: List.zipWith (· - ·) row (0 :: 0 :: 0 :: row)

/-- A zlib stream: its two leading bytes, the compressed data and the checksum of the data. -/
def zlibStream (compressed data : ByteArray) : ByteArray :=
  ⟨#[0x78, 0x01]⟩ ++ compressed ++ bigEndian (Adler32.checksum data)

/-- The pixel data, compressed as differences; pixels that would get longer by this are stored. -/
def zlib (picture : Picture) : ByteArray :=
  let rows := (List.range picture.height).map picture.row
  let differences := rows.map differenceRow
  let plain : ByteArray := ⟨(rows.flatMap plainRow).toArray⟩
  let compressed := zlibStream (Deflate.compress differences) ⟨differences.flatten.toArray⟩
  let stored := zlibStream (Deflate.store plain) plain
  if stored.size < compressed.size then stored else compressed

/-- The file of a picture up to its closing chunk, if the picture is complete. -/
def openFile? (picture : Picture) : Option ByteArray :=
  if picture.complete then some (signature ++ picture.header ++ chunk "IDAT" picture.zlib) else none

/-- The file of a picture, if it is complete. -/
def png? (picture : Picture) : Option ByteArray :=
  picture.openFile?.map (· ++ chunk "IEND" ByteArray.empty)

end Picture

end Vcs
