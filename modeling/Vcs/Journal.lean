import Vcs.Text.Hex

/-!
# Journal

Noteworthy events of a run.  Every event is data: its severity and its wording are functions of it, so
the components that raise events never deal in text.  A journal keeps the events whose severity passes
its threshold, in the order in which they happened.
-/

namespace Vcs

/-- Severity of an event, the gravest first. -/
inductive Level where
  | error
  | warn
  | info
  | debug
  | trace
  deriving DecidableEq, Repr

namespace Level

/-- Position in the order of severity; graver events rank lower. -/
def rank : Level → Nat
  | error => 1
  | warn => 2
  | info => 3
  | debug => 4
  | trace => 5

def name : Level → String
  | error => "ERROR"
  | warn => "WARN"
  | info => "INFO"
  | debug => "DEBUG"
  | trace => "TRACE"

end Level

/-- Something worth telling the operator about. -/
inductive Event where
  /-- The object mask rows of the video chip were laid out. -/
  | masksBuilt (bytes : Nat)
  | videoReset (first last ceiling : UInt16)
  | ceilingPassed (ceiling : UInt16)
  | starFieldArmed
  | timerReset (count : UInt8)
  | processorReset (pc : UInt16)
  | bankSwitched (scheme : String) (before after : Nat)
  | cartridgeInserted (size : Nat) (scheme : String)
  | framesMeasured (long total : Nat)
  | formatDetected (television : String)
  | heightDetected (height first : UInt16)
  | frameOverrun (scanline : Int) (pc : UInt16)
  | displayChosen (television : String) (height first : UInt16)
  | framesCaptured (count : Nat) (directory : String)
  | framesRun (count : Nat) (seconds : String)
  | screenshotSaved (path : String)
  | processorHalted (reason : String)
  deriving DecidableEq, Repr

namespace Event

def level : Event → Level
  | masksBuilt _ | starFieldArmed | bankSwitched .. => .trace
  | videoReset .. | ceilingPassed _ | timerReset _ | processorReset _ | framesMeasured .. => .debug
  | cartridgeInserted .. | formatDetected _ | heightDetected .. | displayChosen ..
  | framesCaptured .. | framesRun .. | screenshotSaved _ => .info
  | frameOverrun .. => .warn
  | processorHalted _ => .error

def message : Event → String
  | masksBuilt bytes => s!"TIA mask tables built ({bytes} bytes)"
  | videoReset first last ceiling => s!"TIA reset: lines {first}..{last}, ceiling {ceiling}"
  | ceilingPassed ceiling => s!"TIA: frame passed {ceiling} scanlines without VSYNC"
  | starFieldArmed => "TIA: missile 0 star-field glitch armed"
  | timerReset count => s!"RIOT reset: timer {count} x64"
  | processorReset pc => "6507 reset, PC=0x" ++ Text.Hex.word pc
  | bankSwitched scheme before after => s!"{scheme} cartridge: bank {before} -> {after}"
  | cartridgeInserted size scheme => s!"cartridge: {size} bytes, {scheme} scheme"
  | framesMeasured long total => s!"{long} of {total} frames were long"
  | formatDetected television => s!"detected {television} display"
  | heightDetected height first => s!"detected display height {height} starting at line {first}"
  | frameOverrun scanline pc =>
    s!"frame overrun at scanline {scanline} (pc 0x" ++ Text.Hex.word pc ++ ")"
  | displayChosen television height first =>
    s!"{television} display, {height} lines from line {first}"
  | framesCaptured count directory => s!"captured {count} frames to {directory}"
  | framesRun count seconds => s!"ran {count} frames, {seconds}s of console time"
  | screenshotSaved path => "screenshot saved to " ++ path
  | processorHalted reason => "processor halted: " ++ reason

end Event

/-- The events kept so far and the threshold that admits further ones. -/
structure Journal where
  /-- Least grave severity that is kept; without one nothing is. -/
  threshold : Option Level := none
  events : Array Event := #[]

namespace Journal

/-- Whether events of this severity are kept. -/
def admits (journal : Journal) (level : Level) : Bool :=
  match journal.threshold with
  | none => false
  | some least => level.rank ≤ least.rank

def record (journal : Journal) (event : Event) : Journal :=
  if journal.admits event.level then { journal with events := journal.events.push event }
  else journal

def recordAll (journal : Journal) (events : List Event) : Journal :=
  events.foldl record journal

/-- The same journal with nothing in it. -/
def cleared (journal : Journal) : Journal :=
  { journal with events := #[] }

end Journal

end Vcs
