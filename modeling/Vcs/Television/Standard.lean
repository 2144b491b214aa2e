import Vcs.Clock
import Vcs.Television.Palette

/-!
# Television Standards

The two standards differ in crystal, colours, frame rate and in how many scanlines a frame may have.
-/

namespace Vcs

/-- A television standard. -/
inductive Television where
  /-- Sixty frames of about 262 scanlines. -/
  | ntsc
  /-- Fifty frames of about 312 scanlines. -/
  | pal
  deriving DecidableEq, Repr

namespace Television

def name : Television → String
  | ntsc => "NTSC"
  | pal => "PAL"

/-- A frame that runs past this many scanlines is cut off. -/
def ceiling : Television → UInt16
  | ntsc => 290
  | pal => 342

/-- Height of the picture unless it is measured or given. -/
def defaultHeight : Television → UInt16
  | ntsc => 210
  | pal => 250

/-- Nominal frames per second. -/
def frameRate : Television → Nat
  | ntsc => 60
  | pal => 50

/-- Whether a frame after one with an odd count of scanlines loses its colours. -/
def colorLoss : Television → Bool
  | ntsc => false
  | pal => true

/-- The crystal.  The video chip runs at its rate, the processor at a third of it. -/
def masterClock : Television → MasterClock
  | ntsc => ⟨3579545⟩
  | pal => ⟨3546894⟩

def palette : Television → Palette
  | ntsc => .ntsc
  | pal => .pal

end Television

end Vcs
