import Vcs.Tia.Video

/-!
# Display Settings

Which scanlines end up in the frame buffer, and the behaviour that depends on the television standard.
-/

namespace Vcs.Tia

/-- Display window and behaviour of the video chip. -/
structure Settings where
  /-- First scanline copied into the frame buffer. -/
  yStart : UInt16 := 34
  /-- Scanlines copied. -/
  height : UInt16 := 210
  /-- A frame that runs past this many scanlines is cut off. -/
  ceiling : UInt16 := 290
  /-- After a frame with an odd count of scanlines the next one loses its colours. -/
  colorLoss : Bool := false
  /-- Whether early motion strobes blank the left edge of the line. -/
  motionBlanks : Bool := true
  deriving DecidableEq, Repr

/-- Settings whose window fits the frame buffers. -/
def Settings.clamped (settings : Settings) : Settings :=
  { settings with height := min settings.height (UInt16.ofNat frameHeightMax) }

end Vcs.Tia
