import Vcs.Journal
import Vcs.Tia.Beam
import Vcs.Tia.Objects
import Vcs.Tia.Strobe

/-!
# Television Interface Adaptor

The state of the video chip.  The chip has no picture memory of its own; it turns its registers into a
signal as the beam sweeps.  Here the beam is lazy: nothing is drawn until a register is touched, and then
everything up to that clock is drawn with the registers as they were.
-/

namespace Vcs

namespace Tia

/-- What the chip knows about the frame it is in and the ones before. -/
structure FrameState where
  /-- Completed frames since power-on. -/
  completed : Nat := 0
  /-- Scanlines of the last completed frame. -/
  lastLength : Int := 0
  /-- A frame has begun and not ended. -/
  drawing : Bool := false
  /-- The frame was cut off at the scanline ceiling. -/
  overrun : Bool := false
  /-- Releasing vertical sync ends the frame from this clock on. -/
  syncDue : Int
  deriving DecidableEq, Repr

/-- When sync is due while none is in progress: later than any clock of a frame. -/
def syncIdle : Int := 0x7FFFFFFF

/-- Scanlines on which sync and blank were last switched, and the picture inferred from them. -/
structure PictureSpan where
  /-- Vertical sync was raised, or minus one if it never was. -/
  syncOn : Int := -1
  blankOn : Int := 0
  blankOff : Int := 0
  /-- First line of the picture, counted from vertical sync. -/
  first : Int := 0
  /-- Line after the last one of the picture. -/
  stop : Int := 0
  deriving DecidableEq, Repr

/-- The paddle capacitors: grounded, or charging since a cycle. -/
structure Charge where
  grounded : Bool := false
  since : Int := 0
  deriving DecidableEq, Repr

/-- What a register access asks of the rest of the system. -/
structure Response where
  /-- The processor is to stop after the current instruction. -/
  stop : Bool := false
  /-- Cycles for which the processor is stalled. -/
  stall : Nat := 0
  /-- A write to a sound register: register and value. -/
  sound : Option (UInt8 × UInt8) := none
  events : List Event := []
  deriving Inhabited

end Tia

/-- The video chip. -/
structure Tia where
  settings : Tia.Settings := {}
  video : Tia.Video := {}
  beam : Tia.Beam := {}
  objects : Tia.Objects := {}
  /-- The fifteen collision latches. -/
  collisions : UInt16 := 0
  /-- A motion strobe has asked for the first eight columns of a line to be blank. -/
  blankPending : Bool := false
  /-- Clock of the last motion strobe. -/
  lastMotion : Int := 0
  frame : Tia.FrameState := { syncDue := Tia.syncIdle }
  span : Tia.PictureSpan := {}
  charge : Tia.Charge := {}

namespace Tia

/-- A chip that has not been reset yet. -/
def new (settings : Settings) : Tia where
  settings := settings.clamped

/-- The event that goes with laying out the mask tables. -/
def tablesEvent : Event :=
  .masksBuilt maskBytes

/-- Replaces the display settings. -/
def setSettings (s : Tia) (settings : Settings) : Tia :=
  { s with settings := settings.clamped }

/-- Scanlines from the start of the frame to a processor cycle. -/
def scanlines (s : Tia) (cycles : Nat) : Int :=
  s.beam.scanline (clockOf cycles)

/-- Colour clocks into the scanline at a processor cycle. -/
def lineClock (s : Tia) (cycles : Nat) : Nat :=
  s.beam.lineClock (clockOf cycles)

/-- The byte stored in the write register at an address, if there is one. -/
def register? (s : Tia) (address : UInt8) : Option UInt8 :=
  (Register.ofAddress? address).map s.objects.registers.get

/-- The colour registers. -/
def colorRegisters : List Register :=
  [.colup0, .colup1, .colupf, .colubk]

/-- Starts a frame.  The cycle counter has just been restarted, and `carry` is how many clocks into a line
the beam was, so that it keeps its place. -/
def beginFrame (s : Tia) (carry : Int) : Tia :=
  let beam := { s.beam with frameStart := -carry }.placeWindow s.settings
  let odd := s.frame.lastLength % 2 != 0
  let tint (value : UInt8) : UInt8 := if odd then value ||| 0x01 else value &&& 0xFE
  let registers :=
    if s.settings.colorLoss then
      colorRegisters.foldl (fun file color ↦ file.set color (tint (file.get color)))
        s.objects.registers
    else s.objects.registers
  { s with
    video := s.video.swap
    beam := { beam with drawnTo := beam.displayStart, lineLeft := lineClocks, pointer := 0 }
    objects := { s.objects with registers := registers }
    frame := { s.frame with overrun := false, drawing := true } }

/-- Takes note of a frame that has ended by this cycle, and returns whether one has. -/
def finishFrame (s : Tia) (cycles : Nat) : Bool × Tia :=
  if s.frame.drawing then (false, s)
  else
    (true, { s with
      frame := { s.frame with
        lastLength := s.scanlines cycles
        completed := s.frame.completed + 1 } })

/-- Moves every stamp back, the cycle counter being about to drop by `cycles`. -/
def rebase (s : Tia) (cycles : Nat) : Tia :=
  let clocks := clockOf cycles
  { s with
    beam := s.beam.rebase clocks
    lastMotion := s.lastMotion - clocks
    frame := { s.frame with syncDue := s.frame.syncDue - clocks }
    charge := { s.charge with since := s.charge.since - cycles } }

/-- Power-on state at a processor cycle.  The count of completed frames goes on. -/
def powerOn (s : Tia) (cycles : Nat) : Tia :=
  let beam := { frameStart := clockOf cycles : Beam }.placeWindow s.settings
  { settings := s.settings
    beam := { beam with drawnTo := beam.frameStart }
    frame := { completed := s.frame.completed, syncDue := syncIdle } }

/-- Resets the chip. -/
def reset (s : Tia) (cycles : Nat) : Tia × Response :=
  let settings := s.settings
  (s.powerOn cycles,
    { events := [.videoReset settings.yStart (settings.yStart + settings.height) settings.ceiling] })

end Tia

end Vcs
