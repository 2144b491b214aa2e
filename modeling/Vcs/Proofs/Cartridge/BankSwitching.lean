import Mathlib.Data.Nat.Bitwise
import Mathlib.Tactic.Set
import Mathlib.Tactic.SplitIfs
import Vcs.Cartridge.Basic

/-!
# Bank Switching

Which bank of a cartridge is mapped is written down twice: the cartridge keeps its number, and the page table
holds the places in the image that the pages of the window show.  Most accesses are served by the table and
never reach the cartridge; those that do may switch the bank and bind the window anew.  Main statement: after
any accesses the two agree.  The bank is the one that the switching addresses among them select, the page
table is the one that installing the cartridge in this bank would build, and every byte that is read from the
window is the byte of the image that the bank maps there.
-/

namespace Vcs

section Lines

variable (address : UInt16)

theorem and_two_pow_eq_zero_iff (line : Nat) (h : line < 16) :
    address &&& UInt16.ofNat (2 ^ line) = 0 ↔ address.toNat / 2 ^ line % 2 = 0 := by
  have hlt : 2 ^ line < 2 ^ 16 := Nat.pow_lt_pow_right (by decide) h
  have hbit : (UInt16.ofNat (2 ^ line)).toNat = 2 ^ line := UInt16.toNat_ofNat_of_lt' hlt
  rw [← UInt16.toNat_inj, UInt16.toNat_and, hbit, Nat.and_two_pow,
    Nat.testBit_eq_decide_div_mod_eq]
  rcases Nat.mod_two_eq_zero_or_one (address.toNat / 2 ^ line) with hzero | hone
  · simp [hzero]
  · simp [hone]

/-- The window is the upper half of what thirteen lines address. -/
theorem inWindow_iff : address &&& Cartridge.windowStart ≠ 0 ↔ 4096 ≤ address.toNat % 8192 := by
  have hline : address &&& Cartridge.windowStart = 0 ↔ address.toNat / 4096 % 2 = 0 :=
    and_two_pow_eq_zero_iff address 12 (by decide)
  rw [ne_eq, hline]
  omega

theorem inLowerHalf_iff : address &&& 0x0800 = 0 ↔ address.toNat % 4096 < 2048 := by
  have hline : address &&& 0x0800 = 0 ↔ address.toNat / 2048 % 2 = 0 :=
    and_two_pow_eq_zero_iff address 11 (by decide)
  rw [hline]
  omega

/-- The page at the bottom of memory. -/
theorem inBottom_iff : address &&& 0x1FC0 = 0 ↔ address.toNat % 8192 < 64 := by
  have hhigh : (address.toNat &&& 0x1FC0) / 2 ^ 6 = address.toNat / 2 ^ 6 % 2 ^ 7 := by
    rw [Nat.and_div_two_pow]
    exact Nat.and_two_pow_sub_one_eq_mod (address.toNat / 2 ^ 6) 7
  have hlow : (address.toNat &&& 0x1FC0) % 2 ^ 6 = 0 := by
    rw [Nat.and_mod_two_pow]
    exact Nat.and_zero _
  rw [← UInt16.toNat_inj, UInt16.toNat_and]
  change address.toNat &&& 0x1FC0 = 0 ↔ _
  omega

theorem toNat_and_0x07FF : (address &&& 0x07FF).toNat = address.toNat % 2048 := by
  rw [UInt16.toNat_and]
  exact Nat.and_two_pow_sub_one_eq_mod address.toNat 11

theorem toNat_and_0x0FFF : (address &&& 0x0FFF).toNat = address.toNat % 4096 := by
  rw [UInt16.toNat_and]
  exact Nat.and_two_pow_sub_one_eq_mod address.toNat 12

end Lines

namespace BankScheme

/-- The bank that an address of the window selects when it is touched. -/
def selected? (scheme : BankScheme) (address : UInt16) : Option Nat :=
  let line := address.toNat % 8192
  match scheme with
  | f8 _ => if 0x1FF8 ≤ line ∧ line ≤ 0x1FF9 then some (line - 0x1FF8) else none
  | f6 => if 0x1FF6 ≤ line ∧ line ≤ 0x1FF9 then some (line - 0x1FF6) else none
  | f4 => if 0x1FF4 ≤ line ∧ line ≤ 0x1FFB then some (line - 0x1FF4) else none
  | twoK | fourK | threeF _ => none

/-- The byte of the image that an address of the window shows in a bank. -/
def shownAt (scheme : BankScheme) (bank : Nat) (address : UInt16) : Nat :=
  match scheme with
  | twoK => address.toNat % 2048
  | threeF slices =>
    2048 * (if address.toNat % 4096 < 2048 then bank else slices - 1) + address.toNat % 2048
  | fourK | f8 _ | f6 | f4 => 4096 * bank + address.toNat % 4096

theorem hotspot?_eq (scheme : BankScheme) {address : UInt16}
    (h : address &&& Cartridge.windowStart ≠ 0) :
    scheme.hotspot? (address &&& 0x0FFF).toNat = scheme.selected? address := by
  rw [inWindow_iff] at h
  rw [toNat_and_0x0FFF]
  cases scheme with
  | twoK | fourK | threeF => rfl
  | f8 | f6 | f4 =>
    simp only [hotspot?, firstHotspot?, bankCount, selected?]
    apply if_congr
    · omega
    · exact congrArg some (by omega)
    · rfl

theorem selected?_lt {scheme : BankScheme} {address : UInt16} {bank : Nat}
    (h : scheme.selected? address = some bank) : bank < scheme.bankCount := by
  cases scheme with
  | twoK | fourK | threeF => simp [selected?] at h
  | f8 | f6 | f4 =>
    simp only [selected?, Option.ite_none_right_eq_some, Option.some.injEq] at h
    simp only [bankCount]
    omega

theorem resetBank_lt {scheme : BankScheme} (h : 0 < scheme.romSize) :
    scheme.resetBank < scheme.bankCount := by
  cases scheme with
  | f8 swapped => cases swapped <;> decide
  | threeF slices => exact Nat.pos_of_mul_pos_right h
  | _ => decide

theorem shownAt_lt {scheme : BankScheme} {bank : Nat} (h : bank < scheme.bankCount)
    (address : UInt16) : scheme.shownAt bank address < scheme.romSize := by
  cases scheme with
  | threeF slices =>
    simp only [bankCount] at h
    simp only [shownAt, romSize, sliceSize]
    split_ifs <;> omega
  | _ =>
    simp only [bankCount] at h
    simp only [shownAt, romSize]
    omega

end BankScheme

namespace Cartridge

/-- The cartridge in a slot, in some bank. -/
def inBank (inserted : Cartridge) (slot : CartridgeSlot) (bank : Nat) : Cartridge :=
  { inserted with bank := bank, slot := some slot }

@[simp]
theorem bank_inBank (inserted : Cartridge) (slot : CartridgeSlot) (bank : Nat) :
    (inserted.inBank slot bank).bank = bank := rfl

@[simp]
theorem rom_inBank (inserted : Cartridge) (slot : CartridgeSlot) (bank : Nat) :
    (inserted.inBank slot bank).rom = inserted.rom := rfl

/-- The page table that installing the cartridge in some bank builds. -/
def claims (inserted : Cartridge) (slot : CartridgeSlot) (table : PageTable) (bank : Nat) :
    PageTable :=
  ({ inserted with bank := bank }.install slot table).2

theorem binding_mapBank {cartridge : Cartridge} {slot : CartridgeSlot}
    (h : cartridge.slot = some slot) (pages : PageTable) (page : Fin PageTable.pageCount) :
    (cartridge.mapBank pages).binding page =
      if (page : Nat) < 64 then pages.binding page
      else cartridge.windowBinding slot (PageTable.addressOf page) := by
  have hpage : (PageTable.addressOf page &&& windowStart == 0) = decide ((page : Nat) < 64) := by
    revert page
    decide
  simp only [mapBank, h, PageTable.binding_bindWhere, hpage]
  by_cases hlow : (page : Nat) < 64
  · simp [hlow]
  · simp [hlow]

/-- Pages of the window are bound anew, whatever they were bound to. -/
theorem mapBank_mapBank {cartridge other : Cartridge} {slot before : CartridgeSlot}
    (h : cartridge.slot = some slot) (hother : other.slot = some before) (pages : PageTable) :
    cartridge.mapBank (other.mapBank pages) = cartridge.mapBank pages := by
  apply PageTable.ext_binding
  intro page
  rw [binding_mapBank h, binding_mapBank h, binding_mapBank hother]
  split_ifs
  · rfl
  · rfl

/-- The page at the bottom of memory is claimed by the 3F scheme. -/
def claimBottom (inserted : Cartridge) (slot : CartridgeSlot) (table : PageTable) : PageTable :=
  match inserted.scheme with
  | .threeF _ => table.bind (PageTable.pageOf 0) (.device slot.id)
  | _ => table

theorem claims_eq (inserted : Cartridge) (slot : CartridgeSlot) (table : PageTable) (bank : Nat) :
    inserted.claims slot table bank =
      (inserted.inBank slot bank).mapBank (inserted.claimBottom slot table) := rfl

/-- Binding the window to another bank gives the table of a cartridge installed in that bank. -/
theorem mapBank_claims (inserted : Cartridge) (slot : CartridgeSlot) (table : PageTable)
    (bank next : Nat) :
    (inserted.inBank slot next).mapBank (inserted.claims slot table bank) =
      inserted.claims slot table next := by
  rw [claims_eq, claims_eq, mapBank_mapBank rfl rfl]

/-- What is known of a cartridge that could be made of an image. -/
theorem withScheme_eq_ok {image : ByteArray} {scheme : BankScheme} {inserted : Cartridge}
    (h : withScheme image scheme = .ok inserted) :
    0 < scheme.romSize ∧ scheme.romSize ≤ image.size ∧
      inserted = { scheme := scheme, rom := image.extract 0 scheme.romSize, bank := scheme.resetBank } := by
  unfold withScheme at h
  dsimp only at h
  split_ifs at h with hmismatch
  · simp only [not_or] at hmismatch
    exact ⟨by omega, by omega, (Except.ok.inj h).symm⟩

/-- A cartridge with the image that its scheme maps. -/
structure Holds (inserted : Cartridge) (image : ByteArray) (scheme : BankScheme) : Prop where
  scheme_eq : inserted.scheme = scheme
  rom_eq : inserted.rom = image.extract 0 scheme.romSize
  pos : 0 < scheme.romSize
  le_size : scheme.romSize ≤ image.size

namespace Holds

variable {inserted : Cartridge} {image : ByteArray} {scheme : BankScheme}
  (h : inserted.Holds image scheme)

include h

theorem size_rom : inserted.rom.size = scheme.romSize := by
  have hle := h.le_size
  rw [h.rom_eq, ByteArray.size_extract]
  omega

theorem getElem?_rom {index : Nat} (hindex : index < scheme.romSize) :
    inserted.rom[index]? = image[index]? := by
  have hle := h.le_size
  have hrom : index < inserted.rom.size := by rwa [h.size_rom]
  have himage : index < image.size := by omega
  rw [getElem?_pos inserted.rom index hrom, getElem?_pos image index himage]
  simp only [h.rom_eq, ByteArray.getElem_extract, Nat.zero_add]

theorem romOffset_inBank (slot : CartridgeSlot) (bank : Nat) (address : UInt16) :
    (inserted.inBank slot bank).romOffset address = scheme.shownAt bank address := by
  have hpos := h.pos
  have hsize : inserted.rom.size = scheme.romSize := h.size_rom
  have hscheme : (inserted.inBank slot bank).scheme = scheme := h.scheme_eq
  cases scheme with
  | twoK => simp only [romOffset, hscheme, BankScheme.shownAt, toNat_and_0x07FF]
  | threeF slices =>
    have hfit : inserted.rom.size = slices * 2048 := hsize
    have hsome : 0 < slices * 2048 := hpos
    rw [romOffset, hscheme]
    dsimp only
    rw [BankScheme.shownAt, toNat_and_0x07FF, rom_inBank, bank_inBank, hfit,
      BankScheme.sliceSize]
    by_cases hlower : address.toNat % 4096 < 2048
    · rw [if_pos (beq_iff_eq.mpr ((inLowerHalf_iff address).mpr hlower)), if_pos hlower]
      omega
    · have hupper : ¬ (address &&& 0x0800 == 0) = true := by
        rw [beq_iff_eq, inLowerHalf_iff]
        exact hlower
      rw [if_neg hupper, if_neg hlower]
      omega
  | fourK | f8 | f6 | f4 =>
    simp only [romOffset, hscheme, BankScheme.shownAt, toNat_and_0x0FFF, bank_inBank,
      Nat.mul_comm]

/-- The byte that a cartridge answers with. -/
theorem romByte_inBank (slot : CartridgeSlot) {bank : Nat} (hbank : bank < scheme.bankCount)
    (address : UInt16) :
    image[scheme.shownAt bank address]? = some ((inserted.inBank slot bank).romByte address) := by
  have hlt : scheme.shownAt bank address < scheme.romSize := BankScheme.shownAt_lt hbank address
  have hrom : scheme.shownAt bank address < inserted.rom.size := by rwa [h.size_rom]
  rw [← h.getElem?_rom hlt, romByte, h.romOffset_inBank, getElem?_pos inserted.rom _ hrom]
  exact congrArg some (getElem!_pos inserted.rom.data (scheme.shownAt bank address) hrom).symm

end Holds

/-! ## Accesses to an installed cartridge -/

section Accesses

variable (inserted : Cartridge) (slot : CartridgeSlot) (table : PageTable) (bank : Nat)

theorem reset_inBank :
    (inserted.inBank slot bank).reset (inserted.claims slot table bank) =
      (inserted.inBank slot inserted.scheme.resetBank,
        inserted.claims slot table inserted.scheme.resetBank) :=
  congrArg (Prod.mk _) (inserted.mapBank_claims slot table bank _)

theorem switchTo_inBank (next : Nat) :
    let switched := (inserted.inBank slot bank).switchTo next (inserted.claims slot table bank)
    switched.cartridge = inserted.inBank slot next ∧
      switched.pages = inserted.claims slot table next :=
  ⟨rfl, inserted.mapBank_claims slot table bank next⟩

theorem touch_inBank {address : UInt16} (hwindow : address &&& windowStart ≠ 0) :
    let next := (inserted.scheme.selected? address).getD bank
    let switched := (inserted.inBank slot bank).touch address (inserted.claims slot table bank)
    switched.cartridge = inserted.inBank slot next ∧
      switched.pages = inserted.claims slot table next := by
  intro next switched
  have hhotspot : (inserted.inBank slot bank).scheme.hotspot? (address &&& 0x0FFF).toNat =
      inserted.scheme.selected? address := BankScheme.hotspot?_eq inserted.scheme hwindow
  simp only [switched, next, touch, hhotspot]
  cases inserted.scheme.selected? address with
  | none => exact ⟨rfl, rfl⟩
  | some bank' => exact inserted.switchTo_inBank slot table bank bank'

/-- How the pages of the window are bound. -/
theorem binding_claims {page : Fin PageTable.pageCount} (hpage : 64 ≤ (page : Nat)) :
    (inserted.claims slot table bank).binding page =
      (inserted.inBank slot bank).windowBinding slot (PageTable.addressOf page) := by
  rw [claims_eq, binding_mapBank rfl, if_neg (Nat.not_lt.mpr hpage)]

theorem le_pageOf {address : UInt16} (hwindow : address &&& windowStart ≠ 0) :
    64 ≤ (PageTable.pageOf address : Nat) := by
  rw [inWindow_iff] at hwindow
  rw [PageTable.val_pageOf]
  omega

end Accesses

end Cartridge

namespace BankScheme

/-- The places that a page shows are next to each other. -/
theorem shownAt_pageOf_add (scheme : BankScheme) (bank : Nat) (address : UInt16) :
    scheme.shownAt bank (PageTable.addressOf (PageTable.pageOf address)) +
      PageTable.offsetOf address = scheme.shownAt bank address := by
  have hpage := PageTable.toNat_addressOf (PageTable.pageOf address)
  have hsum := PageTable.addressOf_pageOf_add address
  have hoffset := PageTable.offsetOf_eq address
  cases scheme with
  | threeF slices =>
    have hhalf : (PageTable.addressOf (PageTable.pageOf address)).toNat % 4096 < 2048 ↔
        address.toNat % 4096 < 2048 := by omega
    simp only [shownAt, hhalf]
    omega
  | _ =>
    simp only [shownAt]
    omega

/-- All of a page lies in the image if its first byte does. -/
theorem shownAt_addressOf_add_le {scheme : BankScheme} {bank : Nat} (h : bank < scheme.bankCount)
    (page : Fin PageTable.pageCount) :
    scheme.shownAt bank (PageTable.addressOf page) + 64 ≤ scheme.romSize := by
  have hfirst := shownAt_lt h (PageTable.addressOf page)
  have hpage := PageTable.toNat_addressOf page
  cases scheme with
  | threeF slices =>
    simp only [shownAt, romSize, sliceSize] at hfirst ⊢
    omega
  | _ =>
    simp only [shownAt, romSize] at hfirst ⊢
    omega

/-- Every address that selects a bank lies in the page that is left to the cartridge. -/
theorem selected?_eq_none {scheme : BankScheme} {address : UInt16}
    (h : (scheme.firstHotspot?.isSome &&
      PageTable.addressOf (PageTable.pageOf address) == Cartridge.hotspotPage) = false) :
    scheme.selected? address = none := by
  have hsum := PageTable.addressOf_pageOf_add address
  have hoffset := PageTable.offsetOf_eq address
  cases scheme with
  | twoK | fourK | threeF => rfl
  | f8 | f6 | f4 =>
    have hpage : (PageTable.addressOf (PageTable.pageOf address)).toNat ≠ 0x1FC0 := by
      intro heq
      have haddress : PageTable.addressOf (PageTable.pageOf address) = Cartridge.hotspotPage :=
        UInt16.toNat_inj.mp heq
      simp [firstHotspot?, haddress] at h
    simp only [selected?]
    rw [if_neg]
    omega

end BankScheme

/-! ## Histories -/

/-- What happens to a cartridge. -/
inductive BankStep where
  | reset
  | read (address : UInt16)
  | write (address : UInt16) (value : UInt8)

namespace BankStep

/-- Whether an access is one that a cartridge sees: to its window, or a write to the bottom of memory by the
3F scheme. -/
def Concerns (scheme : BankScheme) : BankStep → Prop
  | reset => True
  | read address => address &&& Cartridge.windowStart ≠ 0
  | write address _ =>
    address &&& Cartridge.windowStart ≠ 0 ∨
      (∃ slices, scheme = .threeF slices) ∧ address &&& 0x1FC0 = 0

/-- The bank in force after a step. -/
def bankAfter (scheme : BankScheme) (bank : Nat) : BankStep → Nat
  | reset => scheme.resetBank
  | read address => (scheme.selected? address).getD bank
  | write address value =>
    match scheme with
    | .threeF slices => if address.toNat % 8192 < 64 then value.toNat % slices else bank
    | _ => (scheme.selected? address).getD bank

/-- The bank in force after some steps, counted from power-on. -/
def inForce (scheme : BankScheme) (steps : List BankStep) : Nat :=
  steps.foldl (bankAfter scheme) scheme.resetBank

theorem bankAfter_lt {scheme : BankScheme} {bank : Nat} (hsize : 0 < scheme.romSize)
    (h : bank < scheme.bankCount) (step : BankStep) :
    step.bankAfter scheme bank < scheme.bankCount := by
  have htouch (address : UInt16) : (scheme.selected? address).getD bank < scheme.bankCount := by
    rcases hselected : scheme.selected? address with _ | next
    · exact h
    · exact BankScheme.selected?_lt hselected
  cases step with
  | reset => exact BankScheme.resetBank_lt hsize
  | read address => exact htouch address
  | write address value =>
    cases scheme with
    | threeF slices =>
      simp only [bankAfter]
      split
      · exact Nat.mod_lt _ (Nat.zero_lt_of_lt h)
      · exact h
    | _ => exact htouch address

end BankStep

/-- A cartridge in its slot, the pages around it and the memory chips. -/
structure Plugged where
  slot : CartridgeSlot
  cartridge : Cartridge
  pages : PageTable
  store : Store

namespace Plugged

/-- Resets the cartridge. -/
def reset (p : Plugged) : Plugged :=
  let (cartridge, pages) := p.cartridge.reset p.pages
  { p with cartridge := cartridge, pages := pages }

/-- Takes over what an access has made of the cartridge. -/
def adopt (p : Plugged) (switched : Cartridge.Switched) : Plugged :=
  { p with cartridge := switched.cartridge, pages := switched.pages }

/-- Reads an address through the page table.  There is no byte if another device has to answer. -/
def read (p : Plugged) (address : UInt16) : Option UInt8 × Plugged :=
  match p.pages.routeRead p.store address with
  | .data value => (some value, p)
  | .device id =>
    if id = p.slot.id then
      let (value, switched) := p.cartridge.read address p.pages
      (some value, p.adopt switched)
    else (none, p)

/-- Writes an address through the page table. -/
def write (p : Plugged) (address : UInt16) (value : UInt8) : Plugged :=
  let (device, store) := p.pages.routeWrite p.store address value
  let p := { p with store := store }
  if device = some p.slot.id then p.adopt (p.cartridge.write address value p.pages) else p

def step (p : Plugged) : BankStep → Plugged
  | .reset => p.reset
  | .read address => (p.read address).2
  | .write address value => p.write address value

def play (p : Plugged) (steps : List BankStep) : Plugged :=
  steps.foldl step p

/-- A cartridge installed in some bank. -/
def inBank (inserted : Cartridge) (slot : CartridgeSlot) (table : PageTable) (store : Store)
    (bank : Nat) : Plugged where
  slot := slot
  cartridge := inserted.inBank slot bank
  pages := inserted.claims slot table bank
  store := store

section Run

variable {inserted : Cartridge} {image : ByteArray} {scheme : BankScheme}
  (h : inserted.Holds image scheme) (slot : CartridgeSlot) (table : PageTable) {store : Store}
  (hstore : store.contents slot.chip = inserted.rom) {bank : Nat}

theorem adopt_inBank {switched : Cartridge.Switched} {next : Nat}
    (hnext : switched.cartridge = inserted.inBank slot next ∧
      switched.pages = inserted.claims slot table next) :
    (inBank inserted slot table store bank).adopt switched =
      inBank inserted slot table store next := by
  simp only [adopt, inBank, hnext]

include h hstore in
/-- A read of the window is answered with what the bank shows after the read. -/
theorem read_inBank (hbank : bank < scheme.bankCount) {address : UInt16}
    (hwindow : address &&& Cartridge.windowStart ≠ 0) :
    let next := (scheme.selected? address).getD bank
    ∃ value, (inBank inserted slot table store bank).read address =
        (some value, inBank inserted slot table store next) ∧
      image[scheme.shownAt next address]? = some value := by
  intro next
  have hscheme : (inserted.inBank slot bank).scheme = scheme := h.scheme_eq
  have hbinding := inserted.binding_claims slot table bank (Cartridge.le_pageOf hwindow)
  rcases hspecial : scheme.firstHotspot?.isSome &&
      PageTable.addressOf (PageTable.pageOf address) == Cartridge.hotspotPage with _ | _
  · -- The page shows the bank by itself, and no address in it selects another one.
    have hnext : next = bank := by
      simp only [next, BankScheme.selected?_eq_none hspecial, Option.getD_none]
    let offset := (inserted.inBank slot bank).romOffset
      (PageTable.addressOf (PageTable.pageOf address)) + PageTable.offsetOf address
    have hoffset : offset = scheme.shownAt bank address := by
      simp only [offset, h.romOffset_inBank, BankScheme.shownAt_pageOf_add]
    have hshown := h.romByte_inBank slot hbank address
    have hroute : (inserted.claims slot table bank).routeRead store address =
        .data (store.read slot.chip offset) := by
      simp only [PageTable.routeRead, hbinding, Cartridge.windowBinding, hscheme, hspecial,
        Bool.false_eq_true, if_false, Binding.directRead, offset]
    refine ⟨store.read slot.chip offset, ?_, ?_⟩
    · simp only [read, inBank, hroute, hnext]
    · have hlt := BankScheme.shownAt_lt hbank address
      rw [hnext, Store.read_eq_contents, hstore, hoffset, h.getElem?_rom hlt, hshown,
        Option.getD_some]
  · have hroute : (inserted.claims slot table bank).routeRead store address = .device slot.id := by
      simp only [PageTable.routeRead, hbinding, Cartridge.windowBinding, hscheme, hspecial,
        if_true, Binding.device]
    have htouch := inserted.touch_inBank slot table bank hwindow
    rw [h.scheme_eq] at htouch
    have hnext : next < scheme.bankCount :=
      BankStep.bankAfter_lt h.pos hbank (.read address)
    refine ⟨(inserted.inBank slot next).romByte address, ?_, h.romByte_inBank slot hnext address⟩
    simp only [read, inBank, hroute, if_true, Cartridge.read, Prod.mk.injEq, Option.some.injEq]
    exact ⟨congrArg (Cartridge.romByte · address) htouch.1, adopt_inBank slot table htouch⟩

include h in
theorem write_inBank {address : UInt16} {value : UInt8}
    (hconcerns : (BankStep.write address value).Concerns scheme) :
    (inBank inserted slot table store bank).write address value =
      inBank inserted slot table store
        ((BankStep.write address value).bankAfter scheme bank) := by
  have hscheme : inserted.scheme = scheme := h.scheme_eq
  -- Whatever the page shows to reads, writes are left to the cartridge.
  have hroute : (inserted.claims slot table bank).routeWrite store address value =
      (some slot.id, store) := by
    rcases hconcerns with hwindow | ⟨⟨slices, rfl⟩, hbottom⟩
    · have hbinding := inserted.binding_claims slot table bank (Cartridge.le_pageOf hwindow)
      simp only [PageTable.routeWrite, hbinding, Cartridge.windowBinding]
      split_ifs <;> rfl
    · have hpage : PageTable.pageOf address = PageTable.pageOf 0 := by
        apply Fin.ext
        have hfirst : (PageTable.pageOf 0 : Nat) = 0 := rfl
        rw [inBottom_iff] at hbottom
        rw [PageTable.val_pageOf, hfirst]
        omega
      have hbinding : (inserted.claims slot table bank).binding (PageTable.pageOf address) =
          .device slot.id := by
        rw [Cartridge.claims_eq, Cartridge.binding_mapBank rfl, hpage, if_pos (by decide)]
        simp only [Cartridge.claimBottom, hscheme, PageTable.binding_bind_self]
      simp only [PageTable.routeWrite, hbinding, Binding.device]
  have hwrite : (inBank inserted slot table store bank).write address value =
      (inBank inserted slot table store bank).adopt
        ((inserted.inBank slot bank).write address value (inserted.claims slot table bank)) := by
    simp only [write, inBank, hroute, if_true]
  rw [hwrite]
  apply adopt_inBank
  have hkind : (inserted.inBank slot bank).scheme = scheme := hscheme
  cases scheme with
  | threeF slices =>
    rw [Cartridge.write, hkind, BankStep.bankAfter]
    dsimp only
    by_cases hbottom : address &&& 0x1FC0 = 0
    · rw [if_pos (beq_iff_eq.mpr hbottom), if_pos ((inBottom_iff address).mp hbottom)]
      exact inserted.switchTo_inBank slot table bank _
    · rw [if_neg (beq_iff_eq.not.mpr hbottom), if_neg ((inBottom_iff address).not.mp hbottom)]
      exact ⟨rfl, rfl⟩
  | _ =>
    have hwindow : address &&& Cartridge.windowStart ≠ 0 := by
      rcases hconcerns with hwindow | ⟨⟨slices, hthreeF⟩, -⟩
      · exact hwindow
      · exact absurd hthreeF nofun
    have htouch := inserted.touch_inBank slot table bank hwindow
    rw [hscheme] at htouch
    simp only [Cartridge.write, hkind, BankStep.bankAfter]
    exact htouch

include h hstore in
theorem step_inBank (hbank : bank < scheme.bankCount) {step : BankStep}
    (hconcerns : step.Concerns scheme) :
    (inBank inserted slot table store bank).step step =
      inBank inserted slot table store (step.bankAfter scheme bank) := by
  cases step with
  | reset =>
    simp only [Plugged.step, Plugged.reset, inBank, Cartridge.reset_inBank, h.scheme_eq,
      BankStep.bankAfter]
  | read address =>
    have hwindow : address &&& Cartridge.windowStart ≠ 0 := hconcerns
    obtain ⟨value, hread, -⟩ := read_inBank h slot table hstore hbank hwindow
    rw [Plugged.step, hread]
    rfl
  | write address value =>
    rw [Plugged.step]
    exact write_inBank h slot table hconcerns

include h hstore in
/-- The step preserves that the pages are those of the bank, so the run does. -/
theorem play_inBank (hbank : bank < scheme.bankCount) {steps : List BankStep}
    (hconcerns : ∀ step ∈ steps, step.Concerns scheme) :
    let last := steps.foldl (BankStep.bankAfter scheme) bank
    last < scheme.bankCount ∧
      (inBank inserted slot table store bank).play steps =
        inBank inserted slot table store last := by
  induction steps generalizing bank with
  | nil => exact ⟨hbank, rfl⟩
  | cons step rest ih =>
    obtain ⟨hstep, hrest⟩ := List.forall_mem_cons.mp hconcerns
    have hnext := BankStep.bankAfter_lt h.pos hbank step
    obtain ⟨hlast, hplay⟩ := ih hnext hrest
    refine ⟨hlast, ?_⟩
    rw [← step_inBank h slot table hstore hbank hstep] at hplay
    exact hplay

end Run

/-- Whatever happens to an installed cartridge, its bank is the one of power-on as the switching addresses have
changed it.  It is a bank that the scheme has; every read of the window is answered with the byte of the image
that the bank in force after the read maps there; the page table is the one that a cartridge installed in the
bank builds; memory is mapped within the image only; and neither the image nor any chip has changed. -/
theorem play_bank {image : ByteArray} {scheme : BankScheme} {inserted : Cartridge}
    (hinserted : Cartridge.withScheme image scheme = .ok inserted) (slot : CartridgeSlot)
    (table : PageTable) {store : Store} (hstore : store.contents slot.chip = inserted.rom)
    (steps : List BankStep) (hconcerns : ∀ step ∈ steps, step.Concerns scheme) :
    let installed := inserted.install slot table
    let p := (Plugged.mk slot installed.1 installed.2 store).play steps
    let bank := BankStep.inForce scheme steps
    p.cartridge.bank = bank ∧ bank < scheme.bankCount ∧
      (∀ address, address &&& Cartridge.windowStart ≠ 0 →
        ∃ value, (p.read address).1 = some value ∧
          image[scheme.shownAt ((BankStep.read address).bankAfter scheme bank) address]? =
            some value) ∧
      p.pages = ({ inserted with bank := bank }.install slot table).2 ∧
      (∀ page : Fin PageTable.pageCount, 64 ≤ (page : Nat) →
        ∀ chip base, (p.pages.binding page).read = .direct chip base →
          chip = slot.chip ∧ base + 64 ≤ p.cartridge.rom.size) ∧
      p.cartridge.rom = inserted.rom ∧ p.store = store := by
  obtain ⟨hpos, hle, rfl⟩ := Cartridge.withScheme_eq_ok hinserted
  set inserted : Cartridge :=
    { scheme := scheme, rom := image.extract 0 scheme.romSize, bank := scheme.resetBank }
  have h : inserted.Holds image scheme := ⟨rfl, rfl, hpos, hle⟩
  obtain ⟨hbank, hplay⟩ := play_inBank h slot table hstore
    (BankScheme.resetBank_lt hpos) hconcerns
  intro installed p bank
  have hp : p = inBank inserted slot table store bank := hplay
  rw [hp]
  refine ⟨rfl, hbank, ?_, rfl, ?_, rfl, rfl⟩
  · intro address hwindow
    obtain ⟨value, hread, hshown⟩ :=
      read_inBank h slot table hstore hbank hwindow
    exact ⟨value, congrArg Prod.fst hread, hshown⟩
  · intro page hpage chip base hdirect
    have hbinding := inserted.binding_claims slot table bank hpage
    change (inserted.claims slot table bank |>.binding page).read = _ at hdirect
    rw [hbinding, Cartridge.windowBinding] at hdirect
    split_ifs at hdirect
    · exact absurd hdirect nofun
    · obtain ⟨rfl, rfl⟩ := Access.direct.inj hdirect
      refine ⟨rfl, ?_⟩
      have hfit := BankScheme.shownAt_addressOf_add_le hbank page
      rw [h.romOffset_inBank]
      exact hfit.trans_eq h.size_rom.symm

/-- Three slices.  A write to the bottom of memory, a read of the window, and the slice it has selected. -/
theorem play_bank_of_slices :
    let image : ByteArray := ⟨.replicate 6144 0⟩
    let inserted : Cartridge := { scheme := .threeF 3, rom := image.extract 0 6144, bank := 0 }
    let installed := inserted.install ⟨⟨2⟩, 0⟩ .empty
    let steps : List BankStep := [.write 0x003F 5, .read 0x1000]
    let p := (Plugged.mk ⟨⟨2⟩, 0⟩ installed.1 installed.2 ⟨#[inserted.rom]⟩).play steps
    p.cartridge.bank = 2 ∧ ∃ value, (p.read 0x1234).1 = some value ∧ image[0x1234]? = some value := by
  intro image inserted installed steps
  have hinserted : Cartridge.withScheme image (.threeF 3) = .ok inserted := by
    simp [Cartridge.withScheme, BankScheme.romSize, BankScheme.sliceSize, image, inserted,
      ByteArray.size, BankScheme.resetBank]
  have hconcerns : ∀ step ∈ steps, step.Concerns (.threeF 3) :=
    List.forall_mem_cons.mpr ⟨.inr ⟨⟨3, rfl⟩, by decide⟩,
      List.forall_mem_singleton.mpr (by decide : (0x1000 : UInt16) &&& Cartridge.windowStart ≠ 0)⟩
  have hstore : (Store.mk #[inserted.rom]).contents 0 = inserted.rom := by
    simp only [Store.contents, Array.getD_eq_getD_getElem?, List.getElem?_toArray,
      List.getElem?_cons_zero, Option.getD_some]
  obtain ⟨hbank, -, hread, -⟩ := play_bank hinserted ⟨⟨2⟩, 0⟩ .empty hstore steps hconcerns
  have hlast : BankStep.inForce (.threeF 3) steps = 2 := by decide
  obtain ⟨value, hvalue, hshown⟩ := hread 0x1234 (by decide)
  have hplace : (BankScheme.threeF 3).shownAt (BankStep.bankAfter (.threeF 3)
      (BankStep.inForce (.threeF 3) steps) (.read 0x1234)) 0x1234 = 0x1234 := by
    decide
  rw [hplace] at hshown
  intro p
  simp only [p, installed]
  exact ⟨hbank.trans hlast, value, hvalue, hshown⟩

end Plugged

end Vcs
