import Vcs.Tia.Mask

/-!
# Player Strobes

What becomes of the copies a player is drawing when its position is strobed anew in mid-line.  Every copy
has four columns of start delay and then the columns in which it is shown.
-/

namespace Vcs.Tia

/-- Where a strobe lands relative to the copies already under way. -/
inductive StrobeTiming where
  /-- Within a copy's start delay: that copy restarts at the new position. -/
  | inDelay
  /-- Clear of every copy: the first copy at the new position waits a line. -/
  | clear
  /-- Within a copy: it is finished before the move takes effect. -/
  | midCopy
  deriving DecidableEq, Repr

namespace StrobeTiming

/-- Columns of start delay before a copy is shown. -/
def startDelay : Nat := 4

/-- Timing of a strobe that moves a player in size mode `mode` from `old` to any column. -/
def row (mode old : Nat) : Row StrobeTiming :=
  let starts := (copyOffsets mode).map (old + ·)
  ((Row.blank clear).paintAll starts (fun _ ↦ inDelay) startDelay).paintAll
    (starts.map (· + startDelay)) (fun _ ↦ midCopy) (8 * playerScale mode)

/-- Timing of a strobe that moves a player from `old` to `new`. -/
def classify (mode old new : UInt8) : StrobeTiming :=
  (row mode.toNat old.toNat).toArray.getD new.toNat clear

end StrobeTiming

/-- Bytes that the mask tables and a table of all strobe timings take. -/
def maskBytes : Nat :=
  playerTable.cells.size + missileTable.cells.size + ballTable.cells.size + 8 * columns * columns

end Vcs.Tia
