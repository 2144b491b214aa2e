import Vcs.Console.Board
import Vcs.Console.Config
import Vcs.Processor.Step

/-!
# Machine

The whole console: the processor on its board, and the pump that runs it a frame at a time.  A call of the
pump executes slices of instructions until the video chip has left the frame; if the budget of slices runs
out first, the frame stays unfinished and the next call carries on with it.
-/

namespace Vcs

/-- Why a machine cannot go on. -/
inductive MachineError where
  | fault (cause : Fault)
  | cartridge (cause : CartridgeError)
  deriving DecidableEq, Repr

/-- How a call of the frame pump ended. -/
inductive FrameStatus where
  /-- Vertical sync ended the frame. -/
  | complete
  /-- The frame was cut off at the scanline ceiling, or the budget ran out. -/
  | overrun
  deriving DecidableEq, Repr

/-- A console. -/
structure Machine where
  core : Processor Board
  config : Config
  television : Television
  yStart : UInt16
  height : UInt16
  /-- Processor cycles of all completed periods of the cycle counter. -/
  elapsedCycles : Nat := 0
  /-- An overrun has been reported. -/
  overrunReported : Bool := false

namespace Machine

/-- Instructions of a slice. -/
abbrev sliceInstructions : Nat := 25000

/-- Slices of a call. -/
abbrev sliceBudget : Nat := 10

/-- First scanline shown when nothing better is known. -/
def fallbackYStart : UInt16 := 34

/-- Height shown when the measured one makes no sense. -/
def fallbackHeight : UInt16 := 210

/-- The board the processor drives. -/
@[inline]
def board (m : Machine) : Board :=
  m.core.bus

/-- Changes the board. -/
@[inline]
def mapBoard (m : Machine) (change : Board → Board) : Machine :=
  { m with core := { m.core with bus := change m.core.bus } }

/-- Takes note of an event. -/
def note (m : Machine) (event : Event) : Machine :=
  m.mapBoard (·.note event)

/-- Settings of the video chip for a machine's format and placement. -/
def settings (config : Config) (television : Television) (yStart height : UInt16) : Tia.Settings where
  yStart := yStart
  height := height
  ceiling := television.ceiling
  colorLoss := television.colorLoss
  motionBlanks := config.motionBlanks

/-- Resets every device and the processor.  An unfinished frame is dropped. -/
def reset (m : Machine) : Machine :=
  let core := { m.core with bus := m.core.bus.reset }.reset
  { m with core := core }.note (.processorReset core.registers.pc)

/-- A console that has not been switched on yet, with no cartridge inserted.  Memory and timer will hold what they
happen to hold when power comes on. -/
def off (config : Config) (power : Riot.PowerOn) (journal : Journal) : Machine :=
  let television := config.television.getD .ntsc
  let yStart := config.yStart.getD fallbackYStart
  let height := config.height.getD television.defaultHeight
  let tia := Tia.new (settings config television yStart height)
  { core := { bus := Board.new tia power.1 power.2 (journal.record Tia.tablesEvent) }
    config := config
    television := television
    yStart := yStart
    height := height }

/-- A machine that has just been switched on, with no cartridge inserted. -/
def switchedOn (config : Config) (power : Riot.PowerOn) (journal : Journal) : Machine :=
  (off config power journal).reset

/-- A machine that has just been switched on and that found in memory and timer what the seed makes of them.  Without a
seed it is zero that decides; the program draws a seed before it comes to that. -/
def new (config : Config) (journal : Journal) : Machine :=
  switchedOn config (Riot.new (config.seed.getD 0)) journal

/-- Starts a frame unless one is unfinished.  The cycle counter restarts, and the beam keeps its place in
the line. -/
def openFrame (m : Machine) : Machine :=
  if m.board.tia.frame.drawing then m
  else
    let cycles := m.board.cycles
    let carry := m.board.tia.lineClock cycles
    { m with elapsedCycles := m.elapsedCycles + cycles }.mapBoard
      fun board ↦ board.resetCycles.beginFrame carry

/-- Executes at most one slice of instructions. -/
def runSlice (core : Processor Board) : Except Fault Nat × Processor Board :=
  { core with bus := { core.bus with stop := false } }.run sliceInstructions

/-- Executes slices until the frame is over, and returns how many are left of the budget. -/
def runSlices (core : Processor Board) : (budget : Nat) → Except Fault Nat × Processor Board
  | 0 => (.ok 0, core)
  | budget + 1 =>
    match runSlice core with
    | (.error fault, core) => (.error fault, core)
    | (.ok _, core) =>
      if core.bus.tia.frame.drawing then runSlices core budget else (.ok budget, core)

/-- Reports the first overrun of a machine. -/
def reportOverrun (m : Machine) : Machine :=
  if m.overrunReported then m
  else
    { m.note (.frameOverrun (m.board.tia.scanlines m.board.cycles) m.core.registers.pc) with
      overrunReported := true }

/-- Takes note of where the frame stands, `left` slices being left of the budget. -/
def closeFrame (m : Machine) (left : Nat) : FrameStatus × Machine :=
  let cycles := m.board.cycles
  let m := m.mapBoard fun board ↦ { board with tia := (board.tia.finishFrame cycles).2 }
  if left = 0 || m.board.tia.frame.overrun then (.overrun, m.reportOverrun) else (.complete, m)

/-- Runs until the frame is over or the budget has run out. -/
def processFrame (m : Machine) : Except MachineError FrameStatus × Machine :=
  let m := m.openFrame
  match runSlices m.core sliceBudget with
  | (.error fault, core) => (.error (.fault fault), { m with core := core })
  | (.ok left, core) =>
    let (status, m) := { m with core := core }.closeFrame left
    (.ok status, m)

/-- Runs several frames, stopping at the first error. -/
def runFrames (m : Machine) : (count : Nat) → Except MachineError Unit × Machine
  | 0 => (.ok (), m)
  | count + 1 =>
    match m.processFrame with
    | (.error cause, m) => (.error cause, m)
    | (.ok _, m) => m.runFrames count

/-- Seconds of console time since the cartridge was inserted. -/
def emulatedSeconds (m : Machine) : Float :=
  m.television.masterClock.seconds ((m.elapsedCycles + m.board.cycles) * 3)

/-- Colour register values of the last frame, 160 to a line. -/
def frameBuffer (m : Machine) : ByteArray :=
  m.board.tia.video.current

/-- The lines shown, as colours. -/
def rgbFrame (m : Machine) : Array UInt32 :=
  let shown := m.frameBuffer.extract 0 (Tia.frameWidth * m.height.toNat)
  shown.data.map m.television.palette.rgb

end Machine

namespace MachineError

def message : MachineError → String
  | fault cause => cause.message
  | cartridge cause => cause.message

end MachineError

end Vcs
