import Vcs.Memory.Store

/-!
# Frame Buffers

Two frames of colour register values, one byte per pixel, 160 to a line.  The beam draws into the current
one; starting a frame swaps them, so the previous one always holds the last picture.
-/

namespace Vcs.Tia

/-- Pixels of a line. -/
abbrev frameWidth : Nat := 160

/-- Lines of the tallest picture. -/
abbrev frameHeightMax : Nat := 300

/-- A picture shorter than this is taken for noise when its height is measured. -/
abbrev frameHeightMin : Nat := 100

/-- Pixels of a buffer. -/
abbrev framePixels : Nat := frameWidth * frameHeightMax

/-- A buffer of zeros. -/
def blankFrame : ByteArray :=
  ⟨.replicate framePixels 0⟩

theorem size_blankFrame : blankFrame.size = framePixels := by
  simp [blankFrame, ByteArray.size]

theorem getElem?_blankFrame {index : Nat} (h : index < framePixels) :
    blankFrame[index]? = some 0 := by
  have hsize := size_blankFrame
  rw [getElem?_pos blankFrame index (by omega)]
  simp [blankFrame, ByteArray.getElem_eq_getElem_data]

/-- Overwrites `count` pixels from `start` on; pixels beyond the end of the buffer are dropped. -/
def fillPixels (pixels : ByteArray) (start : Nat) (value : UInt8) : (count : Nat) → ByteArray
  | 0 => pixels
  | count + 1 => fillPixels (Store.put start value pixels) (start + 1) value count

/-- The frame being drawn and the one before it. -/
structure Video where
  current : ByteArray := blankFrame
  previous : ByteArray := blankFrame

namespace Video

/-- The frame drawn so far becomes the previous one. -/
def swap (video : Video) : Video where
  current := video.previous
  previous := video.current

end Video

end Vcs.Tia
