import Vcs.Cartridge.Basic
import Vcs.Processor.Bus
import Vcs.Riot.Basic
import Vcs.Sound.Log
import Vcs.Tia.Read
import Vcs.Tia.Write

/-!
# System Board

Everything the processor drives: the page table, the memory chips, the video chip, the chip with ports and
timer, the cartridge, the jacks and the switches.  An access goes through the page table; what memory does
not serve is handed to a device, together with the parts of the board that device is wired to.

| Address                | Device                 |
|------------------------|------------------------|
| `a &&& 0x1080 = 0x0000` | video chip             |
| `a &&& 0x1280 = 0x0080` | memory                 |
| `a &&& 0x1280 = 0x0280` | ports and timer        |
| `a &&& 0x1000 = 0x1000` | cartridge              |

A 3F cartridge also claims the page at the bottom of memory, to see its bank numbers written.  Reads there
still come from the video chip, and writes reach both.
-/

namespace Vcs

/-- The board of a console. -/
structure Board where
  pages : PageTable
  store : Store
  tia : Tia
  riot : Riot
  cartridge : Option Cartridge := none
  /-- Processor cycles since the counter was last restarted. -/
  cycles : Nat := 0
  /-- Byte that was last transferred. -/
  dataBus : UInt8 := 0
  /-- Some device wants the processor to stop. -/
  stop : Bool := false
  /-- Whether the last access was a read. -/
  afterRead : Bool := true
  ports : Ports := {}
  switches : ConsoleSwitches := {}
  /-- Where writes to the sound registers are recorded, if anywhere. -/
  sound : Option SoundLog := none
  journal : Journal := {}

namespace Board

abbrev tiaId : DeviceId := ⟨0⟩
abbrev riotId : DeviceId := ⟨1⟩
abbrev cartridgeId : DeviceId := ⟨2⟩

/-- The chip that holds the memory of the console. -/
abbrev ramChip : Nat := 0

/-- The chip that holds the image of the cartridge. -/
abbrev romChip : Nat := 1

/-- The cycle counter stops here. -/
abbrev cycleLimit : Nat := UInt32.size - 1

/-- Claims the pages of the video chip. -/
def installTia (pages : PageTable) (id : DeviceId) : PageTable :=
  pages.bindWhere fun address ↦
    if address &&& 0x1080 == 0 then some (.device id) else none

/-- A board without a cartridge. -/
def new (tia : Tia) (ram : ByteArray) (riot : Riot) (journal : Journal) : Board where
  pages := installTia (Riot.install .empty riotId ramChip) tiaId
  store := ⟨#[ram, ByteArray.empty]⟩
  tia := tia
  riot := riot
  journal := journal

/-- Contents of the memory. -/
def ram (board : Board) : ByteArray :=
  board.store.contents ramChip

/-- Takes note of an event. -/
def note (board : Board) (event : Event) : Board :=
  { board with journal := board.journal.record event }

/-- Accounts for processor cycles. -/
@[inline]
def elapse (board : Board) (cycles : Nat) : Board :=
  { board with cycles := min (board.cycles + cycles) cycleLimit }

/-- Restarts the cycle counter and moves back every stamp that refers to it. -/
def resetCycles (board : Board) : Board :=
  { board with
    tia := board.tia.rebase board.cycles
    riot := board.riot.rebase board.cycles
    sound := board.sound.map (·.nextFrame)
    cycles := 0 }

/-- Does for the video chip what it asks of the board. -/
def respond (board : Board) (response : Tia.Response) : Board :=
  let sound :=
    match response.sound with
    | none => board.sound
    | some (register, value) => board.sound.map (·.record register value board.cycles)
  { board with
    stop := board.stop || response.stop
    sound := sound
    journal := board.journal.recordAll response.events }.elapse response.stall

/-- Reads the video chip; the byte is left on the data bus. -/
def readTia (board : Board) (address : UInt16) : Board :=
  let (value, tia) := board.tia.read board.cycles board.dataBus board.ports address
  { board with tia := tia, dataBus := value }

/-- Writes the video chip. -/
def writeTia (board : Board) (address : UInt16) (value : UInt8) : Board :=
  let (tia, response) := board.tia.write board.cycles board.afterRead address value
  { board with tia := tia }.respond response

/-- Reads ports or timer. -/
def readRiot (board : Board) (address : UInt16) : Board :=
  let (value, riot) := board.riot.read board.cycles board.ports board.switches address
  { board with riot := riot, dataBus := value }

/-- Writes ports or timer. -/
def writeRiot (board : Board) (address : UInt16) (value : UInt8) : Board :=
  let (riot, drives) := board.riot.write board.cycles address value
  { board with
    riot := riot
    ports := drives.foldl (fun ports (jack, pin, high) ↦ ports.drive jack pin high) board.ports }

/-- Takes over what an access has made of the cartridge. -/
def adopt (board : Board) (switched : Cartridge.Switched) : Board :=
  { board with
    cartridge := some switched.cartridge
    pages := switched.pages
    journal :=
      match switched.event with
      | none => board.journal
      | some event => board.journal.record event }

/-- Reads the cartridge. -/
def readCartridge (board : Board) (address : UInt16) : Board :=
  match board.cartridge with
  | none => { board with dataBus := 0 }
  | some cartridge =>
    let (value, switched) := cartridge.read address board.pages
    { board.adopt switched with dataBus := value }

/-- Writes the cartridge. -/
def writeCartridge (board : Board) (address : UInt16) (value : UInt8) : Board :=
  match board.cartridge with
  | none => board
  | some cartridge => board.adopt (cartridge.write address value board.pages)

/-- Has a device answer a read. -/
def readDevice (board : Board) (id : DeviceId) (address : UInt16) : Board :=
  if id = cartridgeId ∧ address &&& 0x1000 ≠ 0 then board.readCartridge address
  else if id = riotId then board.readRiot address
  else board.readTia address

/-- Has a device handle a write.  Below the window the video chip sees what the cartridge does. -/
def writeDevice (board : Board) (id : DeviceId) (address : UInt16) (value : UInt8) : Board :=
  if id = cartridgeId then
    let board := board.writeCartridge address value
    if address &&& 0x1000 = 0 then board.writeTia address value else board
  else if id = riotId then board.writeRiot address value
  else board.writeTia address value

/-- Reads an address; the byte is left on the data bus. -/
@[inline]
def read (board : Board) (address : UInt16) : Board :=
  match board.pages.routeRead board.store address with
  | .data value => { board with dataBus := value, afterRead := true }
  | .device id => { board.readDevice id address with afterRead := true }

/-- Writes a byte to an address. -/
@[inline]
def write (board : Board) (address : UInt16) (value : UInt8) : Board :=
  match board.pages.routeWrite board.store address value with
  | (none, store) => { board with store := store, dataBus := value, afterRead := false }
  | (some id, store) =>
    { { board with store := store }.writeDevice id address value with
      dataBus := value
      afterRead := false }

/-- The byte at an address that memory serves; asking a device would have effects. -/
def peek (board : Board) (address : UInt16) : Option UInt8 :=
  match board.pages.routeRead board.store address with
  | .data value => some value
  | .device _ => none

instance : Bus Board where
  read address board := board.read address
  write address value board := board.write address value
  latch board := board.dataBus
  elapse cycles board := board.elapse cycles
  stopRequested board := board.stop

/-- Inserts a cartridge.  The pages of the old one, which is returned, are released first. -/
def insert (board : Board) (cartridge : Cartridge) : Option Cartridge × Board :=
  let pages := installTia (board.pages.unbind cartridgeId) tiaId
  let (cartridge, pages) := cartridge.install ⟨cartridgeId, romChip⟩ pages
  (board.cartridge, { board with
    pages := pages
    store := board.store.replace romChip cartridge.rom
    cartridge := some cartridge })

/-- Resets every device. -/
def reset (board : Board) : Board :=
  let board := { board.resetCycles with stop := false, afterRead := true }
  let (riot, timerEvent) := board.riot.reset
  let board := { board with riot := riot }.note timerEvent
  let sound := board.sound.map (·.reset)
  let (tia, response) := board.tia.reset board.cycles
  let board := { board with tia := tia, sound := sound }.respond response
  match board.cartridge with
  | none => board
  | some cartridge =>
    let (cartridge, pages) := cartridge.reset board.pages
    { board with cartridge := some cartridge, pages := pages }

/-- Starts a frame of the video chip. -/
def beginFrame (board : Board) (carry : Int) : Board :=
  { board with tia := board.tia.beginFrame carry }

/-- Moves a front-panel switch. -/
def setSwitch (board : Board) (switch : ConsoleSwitch) (down : Bool) : Board :=
  { board with switches := board.switches.set switch down }

/-- Changes what is plugged into a jack. -/
def plug (board : Board) (jack : Jack) (change : Controller → Controller) : Board :=
  { board with ports := board.ports.modify jack change }

end Board

end Vcs
