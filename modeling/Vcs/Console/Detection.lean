import Vcs.Console.Machine

/-!
# Format Detection

A cartridge does not say which television standard it was made for, nor where its picture is.  Both are
found out by running the program: long frames are votes for PAL, and the picture is what lies between the
switching of vertical blank.  What the configuration fixes is not detected.
-/

namespace Vcs.Machine

/-- Frames run before anything is measured. -/
abbrev settleFrames : Nat := 60

/-- Frames whose length is measured. -/
abbrev sampleFrames : Nat := 30

/-- A frame of more scanlines than this is a long one. -/
def longFrame : Int := 285

/-- A measured height below this one makes no sense. -/
def minHeight : Int := 100

/-- No picture is taller. -/
def maxHeight : Int := 300

/-- Computations on a machine that may fail; what a failed one has done to the machine stays done. -/
abbrev Session := ExceptT MachineError (StateM Machine)

/-- Runs some frames. -/
def settle (count : Nat) : Session Unit :=
  fun m ↦ m.runFrames count

/-- Runs some frames and counts the long ones. -/
def countLong : (count : Nat) → Session Nat
  | 0 => pure 0
  | count + 1 => do
    let _ ← (fun m ↦ m.processFrame : Session FrameStatus)
    let long := decide (longFrame < (← getThe Machine).board.tia.frame.lastLength)
    return (← countLong count) + long.toNat

/-- Votes on the television standard. -/
def detectTelevision : Session Television := do
  settle settleFrames
  let long ← countLong sampleFrames
  modifyThe Machine (·.note (.framesMeasured long sampleFrames))
  return if sampleFrames / 2 ≤ long then .pal else .ntsc

/-- The placement that a measured span gives for a standard: first line and height. -/
def placement (television : Television) (span : Tia.PictureSpan) : UInt16 × UInt16 :=
  let plain := span.stop - span.first
  let height := min (if plain ≤ 0 then plain + span.syncOn else plain) maxHeight
  let (first, height) :=
    if height < minHeight then (fallbackYStart, fallbackHeight)
    else
      (if 0 ≤ span.first ∧ span.first < UInt16.size then UInt16.ofNat span.first.toNat
        else fallbackYStart, UInt16.ofNat height.toNat)
  match television with
  | .pal => (first, if height = fallbackHeight then television.defaultHeight else height)
  | .ntsc => (first, height)

/-- Measures where the picture is. -/
def detectPlacement : Session (UInt16 × UInt16) := do
  modifyThe Machine reset
  settle settleFrames
  let m ← getThe Machine
  return placement m.television m.board.tia.span

/-- Hands format and placement to the video chip and starts over. -/
def applySettings (m : Machine) : Machine :=
  reset <| m.mapBoard fun board ↦
    { board with tia := board.tia.setSettings (settings m.config m.television m.yStart m.height) }

/-- Finds out the television standard unless it is fixed. -/
def settleTelevision : Session Unit := do
  if (← getThe Machine).config.television.isNone then
    let television ← detectTelevision
    modifyThe Machine fun m ↦
      let m := m.note (.formatDetected television.name)
      let height := if m.config.height.isNone then television.defaultHeight else m.height
      { m with television := television, height := height }.applySettings

/-- Finds out the placement unless the height is fixed. -/
def settlePlacement : Session Unit := do
  if (← getThe Machine).config.height.isNone then
    let (first, height) ← detectPlacement
    modifyThe Machine fun m ↦
      let m := m.note (.heightDetected height first)
      { m with yStart := m.config.yStart.getD first, height := height }.applySettings

/-- Inserts the cartridge of an image, finds out what the configuration leaves open, and starts over. -/
def insertImage (image : ByteArray) : Session Unit := do
  match Cartridge.ofImage image with
  | .error cause => throw (.cartridge cause)
  | .ok cartridge =>
    modifyThe Machine fun m ↦
      let m := m.note (.cartridgeInserted image.size cartridge.scheme.name)
      (m.mapBoard fun board ↦ (board.insert cartridge).2).reset
    settleTelevision
    settlePlacement
    modifyThe Machine fun m ↦ { m.reset with elapsedCycles := 0 }

/-- Inserts a cartridge image and switches the machine off and on. -/
def insertCartridge (m : Machine) (image : ByteArray) : Except MachineError Unit × Machine :=
  (insertImage image).run m

end Vcs.Machine
