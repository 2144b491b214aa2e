/-!
# Master Clock

One crystal drives the whole console: the video chip runs at its rate and the processor at a third of
it, so both rates derive from one number.
-/

namespace Vcs

/-- The crystal of a console. -/
structure MasterClock where
  /-- Oscillations per second. -/
  frequency : Nat
  deriving DecidableEq, Repr

namespace MasterClock

/-- Rate of a part that runs once every `divisor` oscillations, whole cycles only. -/
def divided (clock : MasterClock) (divisor : Nat) : Nat :=
  clock.frequency / divisor

/-- Seconds that pass in `ticks` oscillations. -/
def seconds (clock : MasterClock) (ticks : Nat) : Float :=
  ticks.toUInt64.toFloat / clock.frequency.toUInt64.toFloat

end MasterClock

end Vcs
