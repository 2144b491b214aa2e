import Vcs.Observe
import Vcs.Riot.Basic

/-!
# Questions about RAM, Ports and Timer
-/

namespace Vcs.Riot

/-- What can be asked of the chip, given the contents of its memory. -/
def questions (ram : ByteArray) : Questions Riot :=
  [("timer.start", fun r ↦ .u8 r.timer.start),
    ("timer.interval", fun r ↦ .u32 r.timer.interval),
    ("timer.set_at", fun r ↦ .i64 r.timer.setAt),
    ("timer.expired_read", fun r ↦ .bool r.timer.expiredRead),
    ("ddra", fun r ↦ .u8 r.directionA),
    ("ddrb", fun r ↦ .u8 r.directionB),
    ("ram", fun _ ↦ .list (ram.toList.map Value.u8))]

end Vcs.Riot
