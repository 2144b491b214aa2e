import Vcs.Input.Ports
import Vcs.Input.Switches
import Vcs.Journal
import Vcs.Memory.PageTable
import Vcs.Random.Generator
import Vcs.Riot.Timer

/-!
# RAM, Ports and Timer

The chip that holds the 128 bytes of memory, reads the joysticks on port A and the console switches on
port B, and times intervals.  Its memory is reached through the page table; here are its registers.
-/

namespace Vcs

/-- The registers of the chip, and the source of what they hold at power-on. -/
structure Riot where
  timer : Riot.Timer := {}
  /-- Direction of port A, one for output. -/
  directionA : UInt8 := 0
  /-- Direction of port B, which is input only. -/
  directionB : UInt8 := 0
  random : Random.Generator

namespace Riot

/-- Bytes of memory. -/
abbrev ramSize : Nat := 128

/-- The contents of the memory and the chip at power-on. -/
abbrev PowerOn := ByteArray × Riot

/-- What a seed makes of them. -/
def new (seed : UInt64) : PowerOn :=
  let (ram, random) := (Random.Generator.ofSeed seed).drawBytes 255 ramSize
  (ram, { random := random })

/-- Resets the registers.  The timer starts somewhere between 25 and 99. -/
def reset (riot : Riot) : Riot × Event :=
  let (extra, random) := riot.random.draw 75
  let start := 25 + UInt8.ofNat extra
  ({ timer := { start := start }, random := random }, .timerReset start)

/-- Claims the pages of the chip: memory where bit 9 of the address is clear, registers where it is set. -/
def install (pages : PageTable) (id : DeviceId) (ramChip : Nat) : PageTable :=
  pages.bindWhere fun address ↦
    if address &&& 0x1080 != 0x0080 then none
    else if address &&& 0x0200 == 0 then
      some (.direct id ramChip (address &&& 0x7F).toNat)
    else some (.device id)

/-- The pins behind the bits of port A, the left jack in the high nibble. -/
def portPins : List (Jack × DigitalPin × UInt8) :=
  [(.left, .one, 0x10), (.left, .two, 0x20), (.left, .three, 0x40), (.left, .four, 0x80),
    (.right, .one, 0x01), (.right, .two, 0x02), (.right, .three, 0x04), (.right, .four, 0x08)]

/-- Levels of the pins of port A. -/
def portA (ports : Ports) : UInt8 :=
  portPins.foldl
    (fun value (jack, pin, bit) ↦ if ports.level jack pin then value ||| bit else value) 0

/-- A pin put on a level by the console. -/
abbrev Drive := Jack × DigitalPin × Bool

/-- What writing port A drives: every pin, those that are inputs to low. -/
def drives (riot : Riot) (value : UInt8) : List Drive :=
  let driven := value &&& riot.directionA
  portPins.map fun (jack, pin, bit) ↦ (jack, pin, driven &&& bit != 0)

/-- Reads a register. -/
def read (riot : Riot) (cycles : Nat) (ports : Ports) (switches : ConsoleSwitches)
    (address : UInt16) : UInt8 × Riot :=
  match address &&& 0x07 with
  | 0 => (portA ports, riot)
  | 1 => (riot.directionA, riot)
  | 2 => (switches.bits, riot)
  | 3 => (riot.directionB, riot)
  | 4 | 6 =>
    let (value, timer) := riot.timer.read cycles
    (value, { riot with timer := timer })
  | _ => (riot.timer.interruptFlag cycles, riot)

/-- Writes a register.  Port B ignores writes, and so does the edge detector, which nothing is wired to. -/
def write (riot : Riot) (cycles : Nat) (address : UInt16) (value : UInt8) : Riot × List Drive :=
  match address &&& 0x07 with
  | 0 => (riot, riot.drives value)
  | 1 => ({ riot with directionA := value }, [])
  | 2 | 3 => (riot, [])
  | _ =>
    if 0x14 ≤ address &&& 0x17 then
      ({ riot with timer := riot.timer.restart value (address &&& 0x03) cycles }, [])
    else (riot, [])

/-- Moves every stamp back, the cycle counter being about to drop by `cycles`. -/
def rebase (riot : Riot) (cycles : Nat) : Riot :=
  { riot with timer := riot.timer.rebase cycles }

end Riot

end Vcs
