import Vcs.Proofs.Console.Wiring

/-!
# Memory Map

Three devices share thirteen address lines, and each of them claims pages when it is installed.  A cartridge of
the 3F scheme claims a page of the video chip on top, so the order of the claims matters, and taking such a
cartridge out has to give the page back.  Main statement: whatever cartridges have come and gone and whatever
has been read and written, the lines of an address alone say whose it is, a program cannot tell from the video
chip which scheme is plugged in, and the memory of the console holds what was written to it last.
-/

namespace Vcs

section Lines

variable (address : UInt16)

/-- Picking some lines out of others. -/
theorem and_lines {lines some : UInt16} (picked : UInt16) (h : lines &&& some = picked) :
    address &&& lines &&& some = address &&& picked := by
  rw [UInt16.and_assoc, h]

theorem and_or_lines (lines others : UInt16) :
    address &&& (lines ||| others) = (address &&& lines) ||| (address &&& others) := by
  simp only [← UInt16.toNat_inj, UInt16.toNat_and, UInt16.toNat_or, Nat.and_or_distrib_left]

/-- The first address of a page keeps the seven lines that select the page. -/
theorem addressOf_pageOf : PageTable.addressOf (PageTable.pageOf address) = address &&& 0x1FC0 := by
  have hhigh : (address.toNat &&& 0x1FC0) / 2 ^ 6 = address.toNat / 2 ^ 6 % 2 ^ 7 := by
    rw [Nat.and_div_two_pow]
    exact Nat.and_two_pow_sub_one_eq_mod (address.toNat / 2 ^ 6) 7
  have hlow : (address.toNat &&& 0x1FC0) % 2 ^ 6 = 0 := by
    rw [Nat.and_mod_two_pow]
    exact Nat.and_zero _
  have hlines : (address &&& 0x1FC0).toNat = address.toNat &&& 0x1FC0 := UInt16.toNat_and ..
  rw [← UInt16.toNat_inj, PageTable.toNat_addressOf, PageTable.val_pageOf, hlines]
  omega

theorem pageOf_eq_bottom_iff : PageTable.pageOf address = PageTable.pageOf 0 ↔ address &&& 0x1FC0 = 0 := by
  have hfirst : (PageTable.pageOf 0 : Nat) = 0 := rfl
  rw [inBottom_iff, Fin.ext_iff, PageTable.val_pageOf, hfirst]
  omega

theorem toNat_and_0x7F : (address &&& 0x7F).toNat = address.toNat % 128 := by
  rw [UInt16.toNat_and]
  exact Nat.and_two_pow_sub_one_eq_mod address.toNat 7

/-- An address of memory has line 7 high and lines 9 and 12 low. -/
theorem inMemory_iff :
    address &&& 0x1280 = 0x0080 ↔ address &&& 0x1080 = 0x0080 ∧ address &&& 0x0200 = 0 := by
  constructor
  · intro h
    constructor
    · calc
        address &&& 0x1080 = address &&& 0x1280 &&& 0x1080 := (and_lines address 0x1080 rfl).symm
        _ = 0x0080 := congrArg (· &&& 0x1080) h
    · calc
        address &&& 0x0200 = address &&& 0x1280 &&& 0x0200 := (and_lines address 0x0200 rfl).symm
        _ = 0 := congrArg (· &&& 0x0200) h
  · rintro ⟨hchip, hmemory⟩
    calc
      address &&& 0x1280 = (address &&& 0x1080) ||| (address &&& 0x0200) :=
        and_or_lines address 0x1080 0x0200
      _ = 0x0080 := by rw [hchip, hmemory]; rfl

/-- Below the window line 7 tells the two chips apart. -/
theorem inChips (h : address &&& 0x1000 = 0) :
    address &&& 0x1080 = 0 ∨ address &&& 0x1080 = 0x0080 := by
  have hline : address &&& 0x1080 = address &&& 0x0080 := by
    calc
      address &&& 0x1080 = (address &&& 0x1000) ||| (address &&& 0x0080) :=
        and_or_lines address 0x1000 0x0080
      _ = address &&& 0x0080 := by rw [h, UInt16.zero_or]
  have hbit : (address &&& 0x0080).toNat = (address.toNat.testBit 7).toNat * 2 ^ 7 := by
    rw [UInt16.toNat_and]
    exact Nat.and_two_pow address.toNat 7
  rw [hline, ← UInt16.toNat_inj, ← UInt16.toNat_inj, hbit]
  cases address.toNat.testBit 7
  · exact .inl rfl
  · exact .inr rfl

end Lines

/-- Whether a cartridge claims the page at the bottom of memory. -/
def Cartridge.watchesBottom (cartridge : Cartridge) : Bool :=
  match cartridge.scheme with
  | .threeF _ => true
  | _ => false

namespace Board

theorem binding_basePages_pageOf (address : UInt16) :
    basePages.binding (PageTable.pageOf address) =
      if address &&& 0x1080 = 0 then .device tiaId
      else if address &&& 0x1080 ≠ 0x0080 then {}
      else if address &&& 0x0200 = 0 then .direct riotId ramChip (address &&& 0x40).toNat
      else .device riotId := by
  have hchip : address &&& 0x1FC0 &&& 0x1080 = address &&& 0x1080 := and_lines address _ rfl
  have hmemory : address &&& 0x1FC0 &&& 0x0200 = address &&& 0x0200 := and_lines address _ rfl
  have hbase : address &&& 0x1FC0 &&& 0x7F = address &&& 0x40 := and_lines address _ rfl
  simp only [basePages, installTia, Riot.install, PageTable.binding_bindWhere, addressOf_pageOf, hchip,
    hmemory, hbase, beq_iff_eq, bne_iff_ne, PageTable.binding_empty]
  split_ifs <;> rfl

/-- Below the window the pages are those of a board without a cartridge, but for the one at the bottom. -/
theorem binding_wiring_below (cartridge : Cartridge) {address : UInt16}
    (h : address &&& 0x1000 = 0) :
    (wiring (some cartridge)).binding (PageTable.pageOf address) =
      if address &&& 0x1FC0 = 0 ∧ cartridge.watchesBottom then .device cartridgeId
      else basePages.binding (PageTable.pageOf address) := by
  have hpage : (PageTable.pageOf address : Nat) < 64 := by
    have hlow : ¬ 4096 ≤ address.toNat % 8192 := by
      rw [← inWindow_iff]
      exact not_not_intro h
    rw [PageTable.val_pageOf]
    omega
  have hclaims : (wiring (some cartridge)).binding (PageTable.pageOf address) =
      (cartridge.claimBottom romSlot basePages).binding (PageTable.pageOf address) := by
    change (cartridge.claims romSlot basePages cartridge.bank).binding _ = _
    rw [Cartridge.claims_eq, Cartridge.binding_mapBank rfl, if_pos hpage]
  rw [hclaims]
  rcases hscheme : cartridge.scheme with _ | _ | _ | _ | _ | slices
  case threeF =>
    simp only [Cartridge.claimBottom, Cartridge.watchesBottom, hscheme, and_true]
    by_cases hbottom : address &&& 0x1FC0 = 0
    · rw [if_pos hbottom, (pageOf_eq_bottom_iff address).mpr hbottom, PageTable.binding_bind_self]
    · have hother : PageTable.pageOf address ≠ PageTable.pageOf 0 :=
        (pageOf_eq_bottom_iff address).not.mpr hbottom
      rw [if_neg hbottom, PageTable.binding_bind_of_ne _ _ hother]
  all_goals simp only [Cartridge.claimBottom, Cartridge.watchesBottom, hscheme, Bool.false_eq_true,
    and_false, if_false]

/-- The owner of the page that an address falls in. -/
def ownerAt (cartridge : Option Cartridge) (address : UInt16) : Option DeviceId :=
  if address &&& 0x1000 ≠ 0 then cartridge.map fun _ ↦ cartridgeId
  else if address &&& 0x1FC0 = 0 ∧ cartridge.any Cartridge.watchesBottom then some cartridgeId
  else if address &&& 0x1080 = 0 then some tiaId
  else if address &&& 0x1080 = 0x0080 then some riotId
  else none

theorem owner_basePages {address : UInt16} :
    (basePages.binding (PageTable.pageOf address)).owner = ownerAt none address := by
  have hwindow : address &&& 0x1000 ≠ 0 → address &&& 0x1080 ≠ 0 ∧ address &&& 0x1080 ≠ 0x0080 := by
    intro h
    have hpart : address &&& 0x1080 &&& 0x1000 = address &&& 0x1000 :=
      and_lines address _ rfl
    constructor
    · intro hzero
      exact h (by rw [← hpart, hzero]; rfl)
    · intro hchip
      exact h (by rw [← hpart, hchip]; rfl)
  rw [binding_basePages_pageOf, ownerAt]
  by_cases hhigh : address &&& 0x1000 = 0
  · simp only [hhigh, ne_eq, not_true_eq_false, if_false, Option.any_none, Bool.false_eq_true,
      and_false]
    rcases inChips address hhigh with hchip | hchip
    · simp only [hchip, if_true]
      rfl
    · simp only [hchip]
      split_ifs <;> first | rfl | contradiction
  · obtain ⟨hvideo, hchip⟩ := hwindow hhigh
    simp only [hvideo, hchip, hhigh, ne_eq, not_false_eq_true, if_true, if_false]
    rfl

theorem owner_wiring (cartridge : Option Cartridge) (address : UInt16) :
    ((wiring cartridge).binding (PageTable.pageOf address)).owner = ownerAt cartridge address := by
  cases cartridge with
  | none => exact owner_basePages
  | some cartridge =>
    by_cases hhigh : address &&& 0x1000 = 0
    · have hbase : (basePages.binding (PageTable.pageOf address)).owner = ownerAt none address :=
        owner_basePages
      rw [binding_wiring_below cartridge hhigh, apply_ite Binding.owner, hbase]
      simp only [ownerAt, hhigh, ne_eq, not_true_eq_false, if_false, Option.any_some, Option.any_none,
        Bool.false_eq_true, and_false]
      rfl
    · rw [binding_wiring_of_le cartridge (Cartridge.le_pageOf hhigh), Cartridge.windowBinding, ownerAt,
        if_pos hhigh]
      split_ifs <;> rfl

/-! ## Memory -/

theorem binding_wiring_memory (cartridge : Option Cartridge) {address : UInt16}
    (h : address &&& 0x1280 = 0x0080) :
    (wiring cartridge).binding (PageTable.pageOf address) =
      .direct riotId ramChip (address &&& 0x40).toNat := by
  obtain ⟨hchip, hmemory⟩ := (inMemory_iff address).mp h
  have hbase : basePages.binding (PageTable.pageOf address) =
      .direct riotId ramChip (address &&& 0x40).toNat := by
    rw [binding_basePages_pageOf]
    simp only [hchip, hmemory]
    rfl
  have hlow : address &&& 0x1000 = 0 := by
    calc
      address &&& 0x1000 = address &&& 0x1080 &&& 0x1000 := (and_lines address 0x1000 rfl).symm
      _ = 0 := congrArg (· &&& 0x1000) hchip
  have hbottom : address &&& 0x1FC0 ≠ 0 := by
    intro hzero
    have hnone : address &&& 0x1FC0 &&& 0x1080 = 0 := congrArg (· &&& 0x1080) hzero
    rw [and_lines address 0x1080 rfl, hchip] at hnone
    exact absurd hnone (by decide)
  cases cartridge with
  | none => exact hbase
  | some cartridge =>
    rw [binding_wiring_below cartridge hlow, if_neg fun hboth ↦ hbottom hboth.1, hbase]

/-- No other page is written to directly. -/
theorem wiring_write_ne_direct (cartridge : Option Cartridge) {address : UInt16}
    (h : address &&& 0x1280 ≠ 0x0080) (chip base : Nat) :
    ((wiring cartridge).binding (PageTable.pageOf address)).write ≠ .direct chip base := by
  have hdevice (id : DeviceId) : (Binding.device id).write ≠ .direct chip base :=
    fun hdirect ↦ by cases hdirect
  have hbase : (basePages.binding (PageTable.pageOf address)).write ≠ .direct chip base := by
    rw [binding_basePages_pageOf]
    rw [ne_eq, inMemory_iff, not_and] at h
    split_ifs with hvideo hchip hmemory
    · exact hdevice tiaId
    · exact fun hdirect ↦ by cases hdirect
    · exact absurd hmemory (h (not_not.mp hchip))
    · exact hdevice riotId
  cases cartridge with
  | none => exact hbase
  | some cartridge =>
    by_cases hhigh : address &&& 0x1000 = 0
    · rw [binding_wiring_below cartridge hhigh]
      split_ifs
      · exact hdevice cartridgeId
      · exact hbase
    · rw [binding_wiring_of_le cartridge (Cartridge.le_pageOf hhigh), Cartridge.windowBinding]
      split_ifs
      · exact fun hdirect ↦ by cases hdirect
      · exact fun hdirect ↦ by cases hdirect

/-- The place of an address in its page, and of the page in memory. -/
theorem memoryOffset_eq (address : UInt16) :
    (address &&& 0x40).toNat + PageTable.offsetOf address = (address &&& 0x7F).toNat := by
  have hbit : (address &&& 0x40).toNat = (address.toNat.testBit 6).toNat * 2 ^ 6 := by
    rw [UInt16.toNat_and]
    exact Nat.and_two_pow address.toNat 6
  have hline : (address.toNat.testBit 6).toNat = address.toNat / 64 % 2 := Nat.toNat_testBit ..
  rw [hbit, hline, PageTable.offsetOf_eq, toNat_and_0x7F]
  omega

theorem read_store (b : Board) (address : UInt16) : (b.read address).store = b.store := by
  unfold Board.read readDevice readCartridge
  split
  · rfl
  · split_ifs
    · dsimp only
      split <;> rfl
    · rfl
    · rfl

theorem writeDevice_store (b : Board) (id : DeviceId) (address : UInt16) (value : UInt8) :
    (b.writeDevice id address value).store = b.store := by
  have hcartridge : (b.writeCartridge address value).store = b.store := by
    unfold writeCartridge
    split <;> rfl
  unfold writeDevice
  dsimp only
  split_ifs
  · exact hcartridge
  · exact hcartridge
  · rfl
  · rfl

theorem Wired.write_store {b : Board} (h : b.Wired) (address : UInt16) (value : UInt8) :
    (b.write address value).store =
      if address &&& 0x1280 = 0x0080 then b.store.write ramChip (address &&& 0x7F).toNat value
      else b.store := by
  by_cases hmemory : address &&& 0x1280 = 0x0080
  · have hbinding := binding_wiring_memory b.cartridge hmemory
    rw [← h.pages] at hbinding
    simp only [Board.write, PageTable.routeWrite, hbinding, Binding.direct, memoryOffset_eq,
      if_pos hmemory]
  · have hother := wiring_write_ne_direct b.cartridge hmemory
    rw [← h.pages] at hother
    rw [if_neg hmemory]
    rcases hwrite : (b.pages.binding (PageTable.pageOf address)).write with _ | ⟨chip, base⟩ | id
    · simp only [Board.write, PageTable.routeWrite, hwrite]
    · exact absurd hwrite (hother chip base)
    · simp only [Board.write, PageTable.routeWrite, hwrite]
      exact writeDevice_store ..

/-- Memory answers a read with the byte that it holds. -/
theorem Wired.read_of_memory {b : Board} (h : b.Wired) {address : UInt16}
    (hmemory : address &&& 0x1280 = 0x0080) :
    (b.read address).dataBus = b.ram[(address &&& 0x7F).toNat]?.getD 0 := by
  have hbinding := binding_wiring_memory b.cartridge hmemory
  rw [← h.pages] at hbinding
  have hroute : b.pages.routeRead b.store address =
      .data (b.store.read ramChip (address &&& 0x7F).toNat) := by
    simp only [PageTable.routeRead, hbinding, Binding.direct, memoryOffset_eq]
  simp only [Board.read, hroute, Store.read_eq_contents]
  rfl

/-! ## The video chip under any scheme -/

/-- An access has done the same to the video chip and to what the chip has a hand in. -/
structure SameVideo (after other : Board) : Prop where
  tia : after.tia = other.tia
  dataBus : after.dataBus = other.dataBus
  stop : after.stop = other.stop
  cycles : after.cycles = other.cycles
  sound : after.sound = other.sound

theorem SameVideo.trans {first second third : Board} (h : first.SameVideo second)
    (hnext : second.SameVideo third) : first.SameVideo third :=
  ⟨h.tia.trans hnext.tia, h.dataBus.trans hnext.dataBus, h.stop.trans hnext.stop,
    h.cycles.trans hnext.cycles, h.sound.trans hnext.sound⟩

theorem SameVideo.symm {first second : Board} (h : first.SameVideo second) :
    second.SameVideo first :=
  ⟨h.tia.symm, h.dataBus.symm, h.stop.symm, h.cycles.symm, h.sound.symm⟩

/-- A read at an address of the video chip is a read of the chip, whoever owns the page. -/
theorem Wired.read_of_video {b : Board} (h : b.Wired) {address : UInt16}
    (hvideo : address &&& 0x1080 = 0) : (b.read address).SameVideo (b.readTia address) := by
  have hlow : address &&& 0x1000 = 0 := by
    calc
      address &&& 0x1000 = address &&& 0x1080 &&& 0x1000 := (and_lines address 0x1000 rfl).symm
      _ = 0 := congrArg (· &&& 0x1000) hvideo
  have hbase : basePages.binding (PageTable.pageOf address) = .device tiaId := by
    rw [binding_basePages_pageOf, if_pos hvideo]
  have hread (id : DeviceId) (hid : id ≠ riotId)
      (hbinding : b.pages.binding (PageTable.pageOf address) = .device id) :
      (b.read address).SameVideo (b.readTia address) := by
    have hdevice : ¬ (id = cartridgeId ∧ address &&& 0x1000 ≠ 0) := fun hboth ↦ hboth.2 hlow
    simp only [Board.read, PageTable.routeRead, hbinding, Binding.device, readDevice, if_neg hdevice,
      if_neg hid]
    exact ⟨rfl, rfl, rfl, rfl, rfl⟩
  rcases hcartridge : b.cartridge with _ | cartridge
  · apply hread tiaId (by decide)
    rw [h.pages, hcartridge]
    exact hbase
  · have hbinding := binding_wiring_below cartridge hlow
    rw [← hcartridge, ← h.pages] at hbinding
    split_ifs at hbinding
    · exact hread cartridgeId (by decide) hbinding
    · exact hread tiaId (by decide) (hbinding.trans hbase)

/-- So is a write, whether or not the cartridge has taken note of it. -/
theorem Wired.write_of_video {b : Board} (h : b.Wired) {address : UInt16}
    (hvideo : address &&& 0x1080 = 0) (value : UInt8) :
    (b.write address value).SameVideo { b.writeTia address value with dataBus := value } := by
  have hwrite := write_of_reachesVideo (h.reachesVideo hvideo) value
  exact ⟨hwrite.tia, b.write_dataBus address value, hwrite.stop, hwrite.cycles, hwrite.sound⟩

/-- Plugging in a cartridge leaves all but the page table and the slot as it was. -/
theorem insert_with (b : Board) (cartridge : Cartridge) :
    ∃ pages store slot, (b.insert cartridge).2 =
      { b with pages := pages, store := store, cartridge := slot } := by
  unfold Board.insert
  exact ⟨_, _, _, rfl⟩

theorem readTia_insert (b : Board) (cartridge : Cartridge) (address : UInt16) :
    ((b.insert cartridge).2.readTia address).SameVideo (b.readTia address) := by
  obtain ⟨pages, store, slot, hinsert⟩ := insert_with b cartridge
  rw [hinsert]
  exact ⟨rfl, rfl, rfl, rfl, rfl⟩

theorem writeTia_insert (b : Board) (cartridge : Cartridge) (address : UInt16) (value : UInt8) :
    SameVideo { (b.insert cartridge).2.writeTia address value with dataBus := value }
      { b.writeTia address value with dataBus := value } := by
  obtain ⟨pages, store, slot, hinsert⟩ := insert_with b cartridge
  rw [hinsert]
  exact ⟨rfl, rfl, rfl, rfl, rfl⟩

/-- What can be done to the map of a board and through it. -/
inductive MapStep where
  | insert (cartridge : Cartridge)
  | reset
  | resetCycles
  | elapse (cycles : Nat)
  | read (address : UInt16)
  | write (address : UInt16) (value : UInt8)

namespace MapStep

def apply (b : Board) : MapStep → Board
  | insert cartridge => (b.insert cartridge).2
  | reset => b.reset
  | resetCycles => b.resetCycles
  | elapse cycles => b.elapse cycles
  | read address => b.read address
  | write address value => b.write address value

/-- The cartridge that is plugged in after a step, in the bank it was inserted in. -/
def inserts (last : Option Cartridge) : MapStep → Option Cartridge
  | insert cartridge => some cartridge
  | _ => last

/-- The byte at an offset of memory after a step. -/
def stores (offset : Nat) (byte : UInt8) : MapStep → UInt8
  | write address value =>
    if address &&& 0x1280 = 0x0080 ∧ (address &&& 0x7F).toNat = offset then value else byte
  | _ => byte

end MapStep

def perform (b : Board) (steps : List MapStep) : Board :=
  steps.foldl MapStep.apply b

/-- The cartridge inserted last. -/
def lastInserted (steps : List MapStep) : Option Cartridge :=
  steps.foldl MapStep.inserts none

/-- The byte written last to an offset of memory, which began with `first`. -/
def lastStored (steps : List MapStep) (offset : Nat) (first : UInt8) : UInt8 :=
  steps.foldl (MapStep.stores offset) first

theorem apply_wired {b : Board} (h : b.Wired) (step : MapStep) : (step.apply b).Wired := by
  cases step with
  | insert cartridge => exact insert_wired h cartridge
  | reset => exact h.reset
  | resetCycles | elapse => exact h.of_eq rfl rfl rfl
  | read address => exact h.read address
  | write address value => exact h.write address value

/-- What cannot change while a cartridge is plugged in. -/
def label (cartridge : Option Cartridge) : Option (BankScheme × ByteArray) :=
  cartridge.map fun cartridge ↦ (cartridge.scheme, cartridge.rom)

theorem ownerAt_congr {cartridge other : Option Cartridge} (h : label cartridge = label other)
    (address : UInt16) : ownerAt cartridge address = ownerAt other address := by
  rcases cartridge with _ | cartridge
  · rcases other with _ | other
    · rfl
    · exact absurd h nofun
  · rcases other with _ | other
    · exact absurd h nofun
    · have hscheme : cartridge.scheme = other.scheme := congrArg Prod.fst (Option.some.inj h)
      have hwatches : cartridge.watchesBottom = other.watchesBottom := by
        rw [Cartridge.watchesBottom, Cartridge.watchesBottom, hscheme]
      simp only [ownerAt, Option.any_some, hwatches, Option.map_some]

theorem adopt_label (b : Board) {cartridge : Cartridge} {switched : Cartridge.Switched}
    (h : b.cartridge = some cartridge) (hscheme : switched.cartridge.scheme = cartridge.scheme)
    (hrom : switched.cartridge.rom = cartridge.rom) :
    label (b.adopt switched).cartridge = label b.cartridge := by
  simp only [adopt, label, h, Option.map_some, hscheme, hrom]

theorem readCartridge_label {b : Board} (h : b.Wired) (address : UInt16) :
    label (b.readCartridge address).cartridge = label b.cartridge := by
  unfold readCartridge
  split
  · rfl
  · next cartridge hcartridge =>
    have hfollows := (h.claims hcartridge).touch address
    exact adopt_label b hcartridge hfollows.scheme_eq hfollows.rom_eq

theorem writeCartridge_label {b : Board} (h : b.Wired) (address : UInt16) (value : UInt8)
    (store : Store) :
    label ({ b with store := store }.writeCartridge address value).cartridge =
      label b.cartridge := by
  unfold writeCartridge
  split
  · rfl
  · next cartridge hcartridge =>
    have hfollows := (h.claims hcartridge).write address value
    exact adopt_label { b with store := store } hcartridge hfollows.scheme_eq hfollows.rom_eq

theorem apply_label {b : Board} (h : b.Wired) (step : MapStep) {last : Option Cartridge}
    (hlast : label b.cartridge = label last) :
    label (step.apply b).cartridge = label (step.inserts last) := by
  cases step with
  | insert cartridge => rfl
  | reset =>
    refine Eq.trans ?_ hlast
    simp only [MapStep.apply, Board.reset]
    split
    · rfl
    · next cartridge hcartridge =>
      have hsame : b.cartridge = some cartridge := hcartridge
      rw [hsame]
      rfl
  | resetCycles | elapse => exact hlast
  | read address =>
    refine Eq.trans ?_ hlast
    simp only [MapStep.apply, Board.read, readDevice]
    split
    · rfl
    · split_ifs
      · exact readCartridge_label h address
      · rfl
      · rfl
  | write address value =>
    refine Eq.trans ?_ hlast
    simp only [MapStep.apply, Board.write]
    split
    · rfl
    · simp only [writeDevice]
      split_ifs
      · exact writeCartridge_label h address value _
      · exact writeCartridge_label h address value _
      · rfl
      · rfl

theorem insert_ram {b : Board} (h : b.Wired) (cartridge : Cartridge) :
    (b.insert cartridge).2.ram = b.ram := by
  obtain ⟨ram, hchips⟩ := h.chips
  simp only [Board.ram, Store.contents, insert, Store.replace, hchips]
  rfl

theorem write_ram {b : Board} (h : b.Wired) (address : UInt16) (value : UInt8) (offset : Nat) :
    (b.write address value).ram[offset]? =
      b.ram[offset]?.map fun byte ↦ (MapStep.write address value).stores offset byte := by
  simp only [Board.ram, h.write_store, MapStep.stores]
  by_cases hmemory : address &&& 0x1280 = 0x0080
  · have hram : (b.store.write ramChip (address &&& 0x7F).toNat value).contents ramChip =
        Store.put (address &&& 0x7F).toNat value b.ram := by
      rw [h.ram]
      rfl
    rw [if_pos hmemory, hram]
    by_cases hoffset : (address &&& 0x7F).toNat = offset
    · subst hoffset
      simp only [Store.getElem?_put_self, hmemory, and_self, if_true]
      rfl
    · have hother : ¬ (address &&& 0x1280 = 0x0080 ∧ (address &&& 0x7F).toNat = offset) :=
        fun hboth ↦ hoffset hboth.2
      simp only [if_neg hother, Store.getElem?_put_of_ne hoffset]
      exact Option.map_id'.symm
  · have hother : ¬ (address &&& 0x1280 = 0x0080 ∧ (address &&& 0x7F).toNat = offset) :=
      fun hboth ↦ hmemory hboth.1
    simp only [if_neg hmemory, if_neg hother]
    exact Option.map_id'.symm

theorem apply_ram {b : Board} (h : b.Wired) (step : MapStep) (offset : Nat) :
    (step.apply b).ram[offset]? = b.ram[offset]?.map fun byte ↦ step.stores offset byte := by
  have hkeep : b.ram[offset]? = b.ram[offset]?.map fun byte ↦ byte := Option.map_id'.symm
  cases step with
  | insert cartridge =>
    rw [MapStep.apply, insert_ram h]
    exact hkeep
  | reset =>
    have hram : b.reset.ram = b.ram := by
      unfold Board.reset Board.ram
      dsimp only
      split <;> rfl
    rw [MapStep.apply, hram]
    exact hkeep
  | resetCycles | elapse => exact hkeep
  | read address =>
    rw [MapStep.apply, Board.ram, read_store]
    exact hkeep
  | write address value => exact write_ram h address value offset

/-- What has been plugged in and stored so far stays known along a run. -/
theorem perform_keeps {b : Board} (h : b.Wired) {last : Option Cartridge}
    (hlast : label b.cartridge = label last) (steps : List MapStep) :
    (b.perform steps).Wired ∧
      label (b.perform steps).cartridge = label (steps.foldl MapStep.inserts last) ∧
      ∀ offset, (b.perform steps).ram[offset]? = b.ram[offset]?.map (lastStored steps offset) := by
  induction steps generalizing b last with
  | nil => exact ⟨h, hlast, fun offset ↦ Option.map_id'.symm⟩
  | cons step rest ih =>
    obtain ⟨hwired, hlabel, hram⟩ := ih (apply_wired h step) (apply_label h step hlast)
    refine ⟨hwired, hlabel, ?_⟩
    intro offset
    calc
      (b.perform (step :: rest)).ram[offset]? =
          (step.apply b).ram[offset]?.map (lastStored rest offset) := hram offset
      _ = b.ram[offset]?.map (lastStored (step :: rest) offset) := by
        rw [apply_ram h, Option.map_map]
        rfl

theorem insert_new (tia : Tia) (ram : ByteArray) (riot : Riot) (journal : Journal)
    (cartridge : Cartridge) :
    ((Board.new tia ram riot journal).insert cartridge).2.pages = wiring (some cartridge) := by
  have hbase : installTia (basePages.unbind cartridgeId) tiaId = basePages :=
    installTia_unbind_wiring none
  change (cartridge.install romSlot (installTia (basePages.unbind cartridgeId) tiaId)).2 = _
  rw [hbase]
  rfl

/-- Whatever has been plugged in, reset, read and written, the lines of an address say who owns its page, and
the page table is the one that plugging in the present cartridge first builds.  At the addresses of the video
chip nothing can be seen of the scheme: an access does what it does to the chip by itself, and what it would do
with any other cartridge plugged in instead.  Memory holds, and answers with, what was written
last to an address of memory with the same seven lines. -/
theorem perform_memoryMap (tia : Tia) {ram : ByteArray} (hram : ram.size = Riot.ramSize) (riot : Riot)
    (journal : Journal) (steps : List MapStep) :
    let b := (Board.new tia ram riot journal).perform steps
    (∀ address, (b.pages.binding (PageTable.pageOf address)).owner =
      ownerAt (lastInserted steps) address) ∧
    (∀ cartridge, b.cartridge = some cartridge →
      b.pages = ((Board.new tia ram riot journal).insert cartridge).2.pages) ∧
    (∀ address, address &&& 0x1080 = 0 →
      (b.read address).SameVideo (b.readTia address) ∧
      (∀ value, (b.write address value).SameVideo
        { b.writeTia address value with dataBus := value }) ∧
      ∀ other : Cartridge,
        (b.read address).SameVideo ((b.insert other).2.read address) ∧
        ∀ value, (b.write address value).SameVideo ((b.insert other).2.write address value)) ∧
    (∀ address, address &&& 0x1280 = 0x0080 →
      ∃ first, ram[(address &&& 0x7F).toNat]? = some first ∧
        (b.read address).dataBus = lastStored steps (address &&& 0x7F).toNat first) ∧
    ∀ offset, b.ram[offset]? = ram[offset]?.map (lastStored steps offset) := by
  intro b
  have hlast : label (Board.new tia ram riot journal).cartridge = label none := rfl
  obtain ⟨hwired, hlabel, hstored⟩ := perform_keeps (new_wired tia ram riot journal) hlast steps
  refine ⟨?_, ?_, ?_, ?_, hstored⟩
  · intro address
    rw [hwired.pages, owner_wiring]
    exact ownerAt_congr hlabel address
  · intro cartridge hcartridge
    rw [hwired.pages, hcartridge, insert_new]
  · intro address hvideo
    have hread := hwired.read_of_video hvideo
    have hwrite := hwired.write_of_video hvideo
    refine ⟨hread, hwrite, ?_⟩
    intro other
    have hother : (b.insert other).2.Wired := insert_wired hwired other
    constructor
    · exact hread.trans ((hother.read_of_video hvideo).trans (readTia_insert b other address)).symm
    · intro value
      exact (hwrite value).trans
        ((hother.write_of_video hvideo value).trans (writeTia_insert b other address value)).symm
  · intro address hmemory
    have hlt : (address &&& 0x7F).toNat < ram.size := by
      rw [hram, toNat_and_0x7F]
      exact Nat.mod_lt _ (by decide)
    have hfirst : ram[(address &&& 0x7F).toNat]? = some ram[(address &&& 0x7F).toNat] :=
      getElem?_pos ..
    refine ⟨_, hfirst, ?_⟩
    have hold : b.ram[(address &&& 0x7F).toNat]? =
        ram[(address &&& 0x7F).toNat]?.map (lastStored steps (address &&& 0x7F).toNat) := hstored _
    rw [hwired.read_of_memory hmemory, hold, hfirst]
    rfl

/-- Three slices and then a single bank.  What was stored through one mirror of memory while the first
cartridge watched the bottom page is read through another when the second one is in, and the page is back. -/
theorem perform_memoryMap_of_swap :
    let slices : Cartridge := { scheme := .threeF 3, rom := ⟨.replicate 6144 0⟩, bank := 0 }
    let plain : Cartridge := { scheme := .fourK, rom := ⟨.replicate 4096 0⟩, bank := 0 }
    let ram : ByteArray := ⟨.replicate 128 0⟩
    let console := Board.new (Tia.new {}) ram (Riot.new 1).2 {}
    let steps : List MapStep := [.insert slices, .write 0x0091 0x11, .write 0x003F 2, .insert plain]
    let b := console.perform steps
    (b.pages.binding (PageTable.pageOf 0x0020)).owner = some tiaId ∧
      ((console.perform (steps.take 3)).pages.binding (PageTable.pageOf 0x0020)).owner =
        some cartridgeId ∧
      (b.write 0x0002 0).SameVideo { b.writeTia 0x0002 0 with dataBus := 0 } ∧
      (b.read 0x0D91).dataBus = 0x11 := by
  intro slices plain ram console steps b
  have hram : ram.size = Riot.ramSize := by
    simp [ram, ByteArray.size, Riot.ramSize]
  obtain ⟨howner, -, hvideo, hmemory, -⟩ :=
    perform_memoryMap (Tia.new {}) hram (Riot.new 1).2 {} steps
  obtain ⟨hwatched, -⟩ := perform_memoryMap (Tia.new {}) hram (Riot.new 1).2 {} (steps.take 3)
  obtain ⟨-, hwrite, -⟩ := hvideo 0x0002 (by decide)
  obtain ⟨first, -, hread⟩ := hmemory 0x0D91 (by decide)
  exact ⟨howner 0x0020, hwatched 0x0020, hwrite 0, hread⟩

end Board

end Vcs
