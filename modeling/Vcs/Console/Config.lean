import Vcs.Television.Standard

/-!
# Machine Configuration
-/

namespace Vcs

/-- What is laid down about a machine.  Whatever is left open is found out from the cartridge when one is
inserted. -/
structure Config where
  television : Option Television := none
  /-- Scanlines shown. -/
  height : Option UInt16 := none
  /-- First scanline shown. -/
  yStart : Option UInt16 := none
  /-- Seed of what memory and timer hold at power-on. -/
  seed : Option UInt64 := none
  /-- Whether early motion strobes blank the left eight columns. -/
  motionBlanks : Bool := true
  deriving DecidableEq, Repr

end Vcs
