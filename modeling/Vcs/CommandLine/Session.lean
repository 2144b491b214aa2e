import Vcs.CommandLine.Options
import Vcs.Console.Detection
import Vcs.Console.Screenshot
import Vcs.Text.Rounded

/-!
# Sessions

One run of the program: a cartridge is inserted, frames are run, and what was asked for is saved.  A session
asks its surroundings to report events and to save files; it ends at the first thing that goes wrong.
-/

namespace Vcs.CommandLine

/-- What a session needs of its surroundings.  Saving something tells whether it could be saved. -/
structure Desk (m : Type → Type) where
  report : Event → m Unit
  makeDirectory : (path : String) → m Bool
  savePicture : (path : String) → Picture → m Bool
  saveLines : (path : String) → List String → m Bool

/-- Why a session has failed. -/
inductive SessionError where
  | machine (cause : MachineError)
  | unsaved (path : String)
  deriving DecidableEq, Repr

def SessionError.message : SessionError → String
  | machine cause => cause.message
  | unsaved path => "cannot write " ++ path

/-- The way from a directory to an entry of it. -/
def pathWithin (directory name : String) : String :=
  if directory.endsWith "/" then directory ++ name else directory ++ "/" ++ name

/-- Name of the picture of a frame: its number, six digits wide. -/
def frameFile (number : Nat) : String :=
  let digits := toString number
  "".pushn '0' (6 - digits.length) ++ digits ++ ".png"

namespace Session

variable {m : Type → Type} [Monad m]

/-- Reports everything a machine has taken note of. -/
def handOver (desk : Desk m) (machine : Machine) : m Machine := do
  machine.board.journal.events.forM desk.report
  return machine.mapBoard fun board ↦ { board with journal := board.journal.cleared }

/-- Reports an event, if it is grave enough. -/
def announce (desk : Desk m) (event : Event) (machine : Machine) : ExceptT SessionError m Machine :=
  ExceptT.lift (handOver desk (machine.note event))

/-- What to take note of when an operation of the machine fails. -/
def noteFailure (cause : MachineError) (machine : Machine) : Machine :=
  match cause with
  | .fault fault => machine.note (.processorHalted fault.message)
  | .cartridge _ => machine

/-- Has the machine do something that may fail. -/
def operate {α : Type} (desk : Desk m) (operation : Machine → Except MachineError α × Machine)
    (machine : Machine) : ExceptT SessionError m Machine := do
  match operation machine with
  | (.ok _, machine) => ExceptT.lift (handOver desk machine)
  | (.error cause, machine) =>
    let _ ← ExceptT.lift (handOver desk (noteFailure cause machine))
    throw (.machine cause)

/-- Insists on something being saved. -/
def insist (path : String) (saved : m Bool) : ExceptT SessionError m Unit := do
  unless ← saved do throw (.unsaved path)

/-- Runs `count` frames and saves a picture of each, numbered from `number` on. -/
def recordFrom (desk : Desk m) (directory : String) (number : Nat) (machine : Machine) :
    (count : Nat) → ExceptT SessionError m Machine
  | 0 => return machine
  | count + 1 => do
    let machine ← operate desk Machine.processFrame machine
    let path := pathWithin directory (frameFile number)
    insist path (desk.savePicture path machine.screenshot)
    recordFrom desk directory (number + 1) machine count

/-- Runs frames and saves a picture of each. -/
def record (desk : Desk m) (directory : String) (count : Nat) (machine : Machine) :
    ExceptT SessionError m Machine := do
  let frames := pathWithin directory "frames"
  insist frames (desk.makeDirectory frames)
  let machine ← recordFrom desk frames 1 machine count
  announce desk (.framesCaptured count frames) machine

/-- Runs the frames asked for. -/
def runFrames (desk : Desk m) (options : Options) (machine : Machine) :
    ExceptT SessionError m Machine :=
  match options.record with
  | some directory => record desk directory options.frameCount machine
  | none => operate desk (·.runFrames options.frameCount) machine

/-- Saves a picture of the last frame, if asked for. -/
def saveScreenshot (desk : Desk m) (options : Options) (machine : Machine) :
    ExceptT SessionError m Machine :=
  match options.screenshot with
  | none => return machine
  | some path => do
    insist path (desk.savePicture path machine.screenshot)
    announce desk (.screenshotSaved path) machine

/-- Saves the writes to the sound registers, if asked for. -/
def saveSound (desk : Desk m) (options : Options) (machine : Machine) :
    ExceptT SessionError m Unit :=
  match options.audioLog, machine.board.sound with
  | some path, some log => insist path (desk.saveLines path (log.writes.toList.map SoundWrite.line))
  | _, _ => return ()

/-- Records the writes to the sound registers from now on, if they are to be saved. -/
def attachSound (options : Options) (machine : Machine) : Machine :=
  if options.audioLog.isSome then machine.mapBoard fun board ↦ { board with sound := some {} }
  else machine

/-- A whole session with a cartridge image. -/
def run (desk : Desk m) (options : Options) (threshold : Option Level) (image : ByteArray) :
    ExceptT SessionError m Unit := do
  let machine := Machine.new options.config { threshold := threshold }
  let machine ← operate desk (·.insertCartridge image) machine
  let display : Event := .displayChosen machine.television.name machine.height machine.yStart
  let machine ← announce desk display machine
  let machine ← runFrames desk options (attachSound options machine)
  let seconds := Text.Rounded.decimals 2 machine.emulatedSeconds
  let machine ← announce desk (.framesRun options.frameCount seconds) machine
  let machine ← saveScreenshot desk options machine
  saveSound desk options machine

end Session

end Vcs.CommandLine
