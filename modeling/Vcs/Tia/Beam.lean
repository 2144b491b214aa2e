import Vcs.Tia.Settings

/-!
# Beam

Where the beam is and how far the picture has been drawn.  All stamps are colour clocks relative to the
processor's cycle counter, three to a cycle, and may lie before its origin.  A line takes 228 clocks, the
first 68 of which are blank.
-/

namespace Vcs.Tia

/-- Colour clocks of a scanline. -/
abbrev lineClocks : Nat := 228

/-- Colour clocks of the blank at the start of a line. -/
abbrev blankClocks : Nat := 68

/-- Colour clocks of a processor cycle. -/
abbrev clocksPerCycle : Nat := 3

/-- Processor cycles of a scanline. -/
abbrev lineCycles : Nat := 76

/-- The clock of a processor cycle. -/
@[inline]
def clockOf (cycles : Nat) : Int :=
  ((clocksPerCycle * cycles : Nat) : Int)

/-- Beam bookkeeping. -/
structure Beam where
  /-- When the frame began. -/
  frameStart : Int := 0
  /-- When the first line of the display window begins. -/
  displayStart : Int := 0
  /-- When the last line of the display window has ended. -/
  displayStop : Int := 0
  /-- Everything before this clock has been drawn. -/
  drawnTo : Int := 0
  /-- Clocks from there to the end of the line. -/
  lineLeft : Nat := lineClocks
  /-- Pixels drawn so far. -/
  pointer : Nat := 0
  deriving DecidableEq, Repr

namespace Beam

/-- Scanlines from the start of the frame to a clock. -/
@[inline]
def scanline (beam : Beam) (clock : Int) : Int :=
  (clock - beam.frameStart) / lineClocks

/-- Clocks from the start of the line to a clock. -/
@[inline]
def lineClock (beam : Beam) (clock : Int) : Nat :=
  ((clock - beam.frameStart) % lineClocks).toNat

/-- Processor cycle of the line that a clock falls on. -/
@[inline]
def lineCycle (beam : Beam) (clock : Int) : Nat :=
  beam.lineClock clock / clocksPerCycle

/-- Lays the display window of these settings relative to the start of the frame. -/
def placeWindow (beam : Beam) (settings : Settings) : Beam :=
  { beam with
    displayStart := beam.frameStart + lineClocks * settings.yStart.toNat
    displayStop := beam.frameStart + lineClocks * (settings.yStart.toNat + settings.height.toNat) }

/-- Moves every stamp back by a number of clocks. -/
def rebase (beam : Beam) (clocks : Int) : Beam :=
  { beam with
    frameStart := beam.frameStart - clocks
    displayStart := beam.displayStart - clocks
    displayStop := beam.displayStop - clocks
    drawnTo := beam.drawnTo - clocks }

/-- Whether anything is left to draw up to a clock: drawing starts with the display window and is over
when all of it has been drawn. -/
@[inline]
def owes (beam : Beam) (clock : Int) : Bool :=
  beam.displayStart ≤ clock && beam.drawnTo < clock && beam.drawnTo < beam.displayStop

/-- Moves the beam to a clock or to the end of its line, whichever comes first, and returns how many clocks
it moved.  The end of a line that is reached exactly is left to the next stretch. -/
@[inline]
def advance (beam : Beam) (clock : Int) : Nat × Beam :=
  if beam.drawnTo + beam.lineLeft < clock then
    (beam.lineLeft,
      { beam with drawnTo := beam.drawnTo + beam.lineLeft, lineLeft := lineClocks })
  else
    let count := (clock - beam.drawnTo).toNat
    (count, { beam with drawnTo := clock, lineLeft := beam.lineLeft - count })

/-- What is still to be drawn up to a clock.  A line whose end has been reached counts half a clock, for
it is ended before the beam moves on. -/
def debt (beam : Beam) (clock : Int) : Nat :=
  2 * (clock - beam.drawnTo).toNat + if beam.lineLeft = 0 then 1 else 0

theorem debt_advance_lt (beam : Beam) (clock : Int) (h : (beam.advance clock).2.drawnTo < clock) :
    (beam.advance clock).2.debt clock < beam.debt clock := by
  unfold advance at h ⊢
  split
  · next hc =>
    simp only [debt]
    have hl : (lineClocks = 0) = False := by simp
    simp only [hl, if_false]
    split <;> omega
  · next hc => simp [hc] at h

end Beam

end Vcs.Tia
