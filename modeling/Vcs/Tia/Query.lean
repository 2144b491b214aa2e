import Vcs.Observe
import Vcs.Tia.Basic

/-!
# Questions about the Video Chip

They never draw anything: a chip whose beam lags behind is described as it is.
-/

namespace Vcs.Tia

/-- What can be asked of the video chip. -/
def questions : Questions Tia :=
  [("frame.count", fun s ↦ .count s.frame.completed),
    ("frame.partial", fun s ↦ .bool s.frame.drawing),
    ("frame.scanlines", fun s ↦ .i64 s.frame.lastLength),
    ("frame.overrun", fun s ↦ .bool s.frame.overrun),
    ("collisions", fun s ↦ .u16 s.collisions),
    ("enabled", fun s ↦ .u8 s.objects.enabled),
    ("p0.x", fun s ↦ .u8 s.objects.players.zero.position),
    ("p1.x", fun s ↦ .u8 s.objects.players.one.position),
    ("m0.x", fun s ↦ .u8 s.objects.missiles.zero.position),
    ("m1.x", fun s ↦ .u8 s.objects.missiles.one.position),
    ("bl.x", fun s ↦ .u8 s.objects.ball.position),
    ("m0.glitch", fun s ↦ .bool s.objects.starField.armed),
    ("hmove.blank", fun s ↦ .bool s.blankPending),
    ("vsync_on", fun s ↦ .i64 s.span.syncOn),
    ("detected.y_start", fun s ↦ .i64 s.span.first),
    ("detected.y_stop", fun s ↦ .i64 s.span.stop)]

end Vcs.Tia
