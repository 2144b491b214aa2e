import Vcs.Text.Hex

/-!
# Sound Log

The console does not synthesise sound.  What it would play is told by the writes to the six sound
registers, each with the frame and the cycle within the frame on which it happened.
-/

namespace Vcs

/-- A write to a sound register. -/
structure SoundWrite where
  /-- Frame the write belongs to. -/
  frame : Nat
  /-- Processor cycle within the frame. -/
  cycle : Nat
  register : UInt8
  value : UInt8
  deriving DecidableEq, Repr

/-- How a write is written in a log file. -/
def SoundWrite.line (entry : SoundWrite) : String :=
  let frame := entry.frame
  let cycle := entry.cycle
  s!"{frame} {cycle} 0x" ++ Text.Hex.byte entry.register ++ " 0x" ++ Text.Hex.byte entry.value

/-- The writes recorded so far. -/
structure SoundLog where
  /-- Frame in progress. -/
  frame : Nat := 0
  writes : Array SoundWrite := #[]

namespace SoundLog

def record (log : SoundLog) (register value : UInt8) (cycle : Nat) : SoundLog :=
  { log with writes := log.writes.push ⟨log.frame, cycle, register, value⟩ }

/-- The cycle counter restarts, which it does once for every frame. -/
def nextFrame (log : SoundLog) : SoundLog :=
  { log with frame := log.frame + 1 }

/-- Nothing recorded, as after power-on. -/
def reset (_log : SoundLog) : SoundLog := {}

/-- Takes everything recorded so far. -/
def drain (log : SoundLog) : Array SoundWrite × SoundLog :=
  (log.writes, { log with writes := #[] })

end SoundLog

end Vcs
