import Vcs.Cartridge.Scheme
import Vcs.Journal
import Vcs.Memory.PageTable

/-!
# Cartridges

A cartridge answers wherever address line 12 is high.  The current bank is bound to the pages of the window
as memory, so that ordinary fetches never ask the cartridge; the page with the switching addresses is left
to the cartridge itself.  Switching a bank binds the window anew.
-/

namespace Vcs

/-- Where a cartridge has been installed: its device number and the chip that holds its image. -/
structure CartridgeSlot where
  id : DeviceId
  chip : Nat
  deriving DecidableEq, Repr

/-- A cartridge. -/
structure Cartridge where
  scheme : BankScheme
  rom : ByteArray
  /-- Bank, or slice, mapped at present. -/
  bank : Nat
  /-- Nothing before the cartridge is installed. -/
  slot : Option CartridgeSlot := none

namespace Cartridge

/-- First address of the window. -/
abbrev windowStart : UInt16 := 0x1000

/-- First address of the page that holds every switching address. -/
abbrev hotspotPage : UInt16 := 0x1FC0

/-- A cartridge with an explicit scheme.  Only images of a single bank may be longer than the scheme needs;
they are mapped from their beginning. -/
def withScheme (image : ByteArray) (scheme : BankScheme) : Except CartridgeError Cartridge :=
  let needed := scheme.romSize
  if image.size < needed ∨ needed = 0 ∨ image.size ≠ needed ∧ 1 < scheme.bankCount then
    .error (.sizeMismatch scheme needed image.size)
  else
    .ok { scheme := scheme, rom := image.extract 0 needed, bank := scheme.resetBank }

/-- A cartridge whose scheme is guessed. -/
def ofImage (image : ByteArray) : Except CartridgeError Cartridge := do
  withScheme image (← BankScheme.detect image)

/-- Offset in the image of what an address of the window shows. -/
def romOffset (cartridge : Cartridge) (address : UInt16) : Nat :=
  match cartridge.scheme with
  | .twoK => (address &&& 0x07FF).toNat
  | .threeF _ =>
    if address &&& 0x0800 == 0 then
      cartridge.bank * BankScheme.sliceSize + (address &&& 0x07FF).toNat
    else cartridge.rom.size - BankScheme.sliceSize + (address &&& 0x07FF).toNat
  | _ => cartridge.bank * BankScheme.bankSize + (address &&& 0x0FFF).toNat

/-- The byte that an address of the window shows. -/
def romByte (cartridge : Cartridge) (address : UInt16) : UInt8 :=
  cartridge.rom.get! (cartridge.romOffset address)

/-- What a page of the window is bound to. -/
def windowBinding (cartridge : Cartridge) (slot : CartridgeSlot) (address : UInt16) : Binding :=
  if cartridge.scheme.firstHotspot?.isSome && address == hotspotPage then .device slot.id
  else .directRead slot.id slot.chip (cartridge.romOffset address)

/-- Binds every page of the window to the current bank. -/
def mapBank (cartridge : Cartridge) (pages : PageTable) : PageTable :=
  match cartridge.slot with
  | none => pages
  | some slot =>
    pages.bindWhere fun address ↦
      if address &&& windowStart == 0 then none else some (cartridge.windowBinding slot address)

/-- Installs the cartridge and claims its pages, the bottom of memory among them for the 3F scheme. -/
def install (cartridge : Cartridge) (slot : CartridgeSlot) (pages : PageTable) :
    Cartridge × PageTable :=
  let cartridge := { cartridge with slot := some slot }
  let pages :=
    match cartridge.scheme with
    | .threeF _ => pages.bind (PageTable.pageOf 0) (.device slot.id)
    | _ => pages
  (cartridge, cartridge.mapBank pages)

/-- Goes back to the bank of power-on. -/
def reset (cartridge : Cartridge) (pages : PageTable) : Cartridge × PageTable :=
  let cartridge := { cartridge with bank := cartridge.scheme.resetBank }
  (cartridge, cartridge.mapBank pages)

/-- What becomes of an access: the cartridge, the page table, and an event if the bank has changed. -/
structure Switched where
  cartridge : Cartridge
  pages : PageTable
  event : Option Event := none

/-- Selects a bank. -/
def switchTo (cartridge : Cartridge) (bank : Nat) (pages : PageTable) : Switched :=
  let event :=
    if bank = cartridge.bank then none
    else some (.bankSwitched cartridge.scheme.name cartridge.bank bank)
  let cartridge := { cartridge with bank := bank }
  { cartridge := cartridge, pages := cartridge.mapBank pages, event := event }

/-- Selects the bank that touching an address selects, if any. -/
def touch (cartridge : Cartridge) (address : UInt16) (pages : PageTable) : Switched :=
  match cartridge.scheme.hotspot? (address &&& 0x0FFF).toNat with
  | some bank => cartridge.switchTo bank pages
  | none => { cartridge := cartridge, pages := pages }

/-- Reads an address.  A bank is switched before the byte is fetched. -/
def read (cartridge : Cartridge) (address : UInt16) (pages : PageTable) : UInt8 × Switched :=
  let switched := cartridge.touch address pages
  (switched.cartridge.romByte address, switched)

/-- Writes an address.  The image never changes, only the bank. -/
def write (cartridge : Cartridge) (address : UInt16) (value : UInt8) (pages : PageTable) : Switched :=
  match cartridge.scheme with
  | .threeF slices =>
    if address &&& 0x1FC0 == 0 then cartridge.switchTo (value.toNat % slices) pages
    else { cartridge := cartridge, pages := pages }
  | _ => cartridge.touch address pages

end Cartridge

end Vcs
