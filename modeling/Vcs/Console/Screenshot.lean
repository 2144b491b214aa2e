import Vcs.Console.Machine
import Vcs.Picture.Png

/-!
# Screenshots
-/

namespace Vcs.Machine

/-- The lines shown, as a picture. -/
def screenshot (m : Machine) : Picture where
  width := Tia.frameWidth
  height := m.height.toNat
  pixels := m.rgbFrame

end Vcs.Machine
