/-!
# Console Switches

The five switches on the front panel, as the byte in which the program reads them.  A switch that is
down clears its bit; the bits without a switch always read as one.
-/

namespace Vcs

/-- A switch on the front panel. -/
inductive ConsoleSwitch where
  /-- Starts the game anew while it is held. -/
  | reset
  /-- Steps through the games while it is held. -/
  | select
  /-- Down for black and white. -/
  | blackWhite
  /-- Left difficulty; down for the hard one. -/
  | difficulty0
  /-- Right difficulty; down for the hard one. -/
  | difficulty1
  deriving DecidableEq, Repr

namespace ConsoleSwitch

/-- The bit that shows a switch. -/
def mask : ConsoleSwitch → UInt8
  | reset => 0x01
  | select => 0x02
  | blackWhite => 0x08
  | difficulty0 => 0x40
  | difficulty1 => 0x80

/-- All switches, in the order of their bits. -/
def all : List ConsoleSwitch :=
  [reset, select, blackWhite, difficulty0, difficulty1]

end ConsoleSwitch

/-- Positions of all switches. -/
structure ConsoleSwitches where
  bits : UInt8 := 0xFF
  deriving DecidableEq, Repr

namespace ConsoleSwitches

/-- Puts a switch down or up. -/
def set (switches : ConsoleSwitches) (switch : ConsoleSwitch) (down : Bool) : ConsoleSwitches :=
  if down then ⟨switches.bits &&& ~~~switch.mask⟩ else ⟨switches.bits ||| switch.mask⟩

def isDown (switches : ConsoleSwitches) (switch : ConsoleSwitch) : Bool :=
  switches.bits &&& switch.mask == 0

end ConsoleSwitches

end Vcs
