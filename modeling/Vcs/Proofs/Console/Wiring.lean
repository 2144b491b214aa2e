import Vcs.Console.Board
import Vcs.Proofs.Cartridge.BankSwitching
import Vcs.Proofs.Processor.Simulation

/-!
# Wiring

Pages change hands when a cartridge is inserted and are bound anew whenever a bank is switched.  Still the
page table of a board tells nothing about its past: it is always the table that installing the cartridge, in
the bank it is in, builds on a board without one, and the second memory chip always holds the image.  So it is
known which device an address reaches.
-/

namespace Vcs

namespace Cartridge

/-- Some pages are those that installing the cartridge builds. -/
structure Claims (cartridge : Cartridge) (slot : CartridgeSlot) (table pages : PageTable) : Prop where
  slot_eq : cartridge.slot = some slot
  pages_eq : pages = (cartridge.install slot table).2

/-- What becomes of a cartridge that keeps its pages up to date and changes at most its bank. -/
structure Follows (cartridge : Cartridge) (slot : CartridgeSlot) (table : PageTable)
    (after : Cartridge) (pages : PageTable) : Prop where
  scheme_eq : after.scheme = cartridge.scheme
  rom_eq : after.rom = cartridge.rom
  claims : after.Claims slot table pages

variable {cartridge : Cartridge} {slot : CartridgeSlot} {table pages : PageTable}

theorem Claims.withBank (h : cartridge.Claims slot table pages) (bank : Nat) :
    cartridge.Follows slot table { cartridge with bank := bank }
      ({ cartridge with bank := bank }.mapBank pages) := by
  have hinstalled : { cartridge with slot := some slot } = cartridge := by
    rw [← h.slot_eq]
  refine ⟨rfl, rfl, h.slot_eq, ?_⟩
  have hmapped := cartridge.mapBank_claims slot table cartridge.bank bank
  have hbank : cartridge.inBank slot bank = { cartridge with bank := bank } := by
    rw [inBank, ← h.slot_eq]
  rw [hbank] at hmapped
  rw [h.pages_eq]
  exact hmapped

theorem Claims.reset (h : cartridge.Claims slot table pages) :
    cartridge.Follows slot table (cartridge.reset pages).1 (cartridge.reset pages).2 :=
  h.withBank cartridge.scheme.resetBank

theorem Claims.touch (h : cartridge.Claims slot table pages) (address : UInt16) :
    cartridge.Follows slot table (cartridge.touch address pages).cartridge
      (cartridge.touch address pages).pages := by
  unfold Cartridge.touch
  split
  · next bank _ => exact h.withBank bank
  · exact ⟨rfl, rfl, h⟩

theorem Claims.write (h : cartridge.Claims slot table pages) (address : UInt16) (value : UInt8) :
    cartridge.Follows slot table (cartridge.write address value pages).cartridge
      (cartridge.write address value pages).pages := by
  unfold Cartridge.write
  split
  · split
    · exact h.withBank _
    · exact ⟨rfl, rfl, h⟩
  · exact h.touch address

end Cartridge

namespace Board

/-- The page table of a board without a cartridge. -/
def basePages : PageTable :=
  installTia (Riot.install .empty riotId ramChip) tiaId

/-- Where the cartridge is installed. -/
abbrev romSlot : CartridgeSlot := ⟨cartridgeId, romChip⟩

/-- The page table of a board with some cartridge. -/
def wiring : Option Cartridge → PageTable
  | none => basePages
  | some cartridge => (cartridge.install romSlot basePages).2

/-- What the second memory chip holds. -/
def image : Option Cartridge → ByteArray
  | none => ByteArray.empty
  | some cartridge => cartridge.rom

theorem binding_basePages_of_video {page : Fin PageTable.pageCount}
    (h : PageTable.addressOf page &&& 0x1080 = 0) :
    basePages.binding page = .device tiaId := by
  simp [basePages, installTia, h]

theorem binding_basePages_eq (page : Fin PageTable.pageCount) :
    basePages.binding page =
      if PageTable.addressOf page &&& 0x1080 = 0 then .device tiaId
      else if PageTable.addressOf page &&& 0x1080 ≠ 0x0080 then {}
      else if PageTable.addressOf page &&& 0x0200 = 0 then
        .direct riotId ramChip (PageTable.addressOf page &&& 0x7F).toNat
      else .device riotId := by
  simp only [basePages, installTia, Riot.install, PageTable.binding_bindWhere, beq_iff_eq,
    bne_iff_ne, PageTable.binding_empty]
  split_ifs <;> rfl

/-- Below the window a page belongs to one of the two chips, and only memory is written to directly. -/
theorem binding_basePages (page : Fin PageTable.pageCount) :
    (64 ≤ (page : Nat) → basePages.binding page = {}) ∧
      (basePages.binding page).owner ≠ some cartridgeId ∧
      ∀ chip base, (basePages.binding page).write = .direct chip base → chip = ramChip := by
  have hwindow : 64 ≤ (page : Nat) → PageTable.addressOf page &&& 0x1080 ≠ 0 ∧
      PageTable.addressOf page &&& 0x1080 ≠ 0x0080 := by
    revert page
    decide +kernel
  rw [binding_basePages_eq]
  refine ⟨?_, ?_, ?_⟩
  · intro hpage
    rw [if_neg (hwindow hpage).1, if_pos (hwindow hpage).2]
  · split_ifs <;> simp [Binding.device, Binding.direct]
  · intro chip base hdirect
    split_ifs at hdirect <;> simp_all [Binding.device, Binding.direct]

/-- Below the window a cartridge claims the bottom page at most. -/
theorem binding_wiring_of_lt (cartridge : Cartridge) {page : Fin PageTable.pageCount}
    (hpage : (page : Nat) < 64) :
    (wiring (some cartridge)).binding page = basePages.binding page ∨
      PageTable.addressOf page = 0 ∧
        (wiring (some cartridge)).binding page = .device cartridgeId := by
  have hclaims : (wiring (some cartridge)).binding page =
      (cartridge.claimBottom romSlot basePages).binding page := by
    change (cartridge.claims romSlot basePages cartridge.bank).binding page = _
    rw [Cartridge.claims_eq, Cartridge.binding_mapBank rfl, if_pos hpage]
  rw [hclaims, Cartridge.claimBottom]
  split
  · by_cases hbottom : page = PageTable.pageOf 0
    · rw [hbottom, PageTable.binding_bind_self]
      exact .inr ⟨by decide, rfl⟩
    · exact .inl (PageTable.binding_bind_of_ne _ _ hbottom)
  · exact .inl rfl

theorem binding_wiring_of_le (cartridge : Cartridge) {page : Fin PageTable.pageCount}
    (hpage : 64 ≤ (page : Nat)) :
    (wiring (some cartridge)).binding page =
      (cartridge.inBank romSlot cartridge.bank).windowBinding romSlot (PageTable.addressOf page) :=
  cartridge.binding_claims romSlot basePages cartridge.bank hpage

/-- Memory is the only chip that is written to directly. -/
theorem wiring_write_eq_direct {cartridge : Option Cartridge} {page : Fin PageTable.pageCount}
    {chip base : Nat} (h : ((wiring cartridge).binding page).write = .direct chip base) :
    chip = ramChip := by
  obtain ⟨-, -, hbase⟩ := binding_basePages page
  cases cartridge with
  | none => exact hbase chip base h
  | some cartridge =>
    by_cases hpage : 64 ≤ (page : Nat)
    · rw [binding_wiring_of_le cartridge hpage, Cartridge.windowBinding] at h
      split_ifs at h
      · cases h
      · cases h
    · rcases binding_wiring_of_lt cartridge (Nat.lt_of_not_le hpage) with heq | ⟨-, heq⟩
      · rw [heq] at h
        exact hbase chip base h
      · rw [heq] at h
        cases h

/-- Taking the cartridge out gives the pages of a board without one. -/
theorem installTia_unbind_wiring (cartridge : Option Cartridge) :
    installTia ((wiring cartridge).unbind cartridgeId) tiaId = basePages := by
  apply PageTable.ext_binding
  intro page
  obtain ⟨hwindow, howner, -⟩ := binding_basePages page
  by_cases hvideo : PageTable.addressOf page &&& 0x1080 = 0
  · rw [binding_basePages_of_video hvideo]
    simp [installTia, hvideo]
  · have hunbound : (installTia ((wiring cartridge).unbind cartridgeId) tiaId).binding page =
        if ((wiring cartridge).binding page).owner = some cartridgeId then {}
        else (wiring cartridge).binding page := by
      simp [installTia, hvideo]
    rw [hunbound]
    cases cartridge with
    | none => rw [wiring, if_neg howner]
    | some cartridge =>
      by_cases hpage : 64 ≤ (page : Nat)
      · have hcartridge : ((wiring (some cartridge)).binding page).owner = some cartridgeId := by
          rw [binding_wiring_of_le cartridge hpage, Cartridge.windowBinding]
          split_ifs <;> rfl
        rw [if_pos hcartridge, hwindow hpage]
      · rcases binding_wiring_of_lt cartridge (Nat.lt_of_not_le hpage) with heq | ⟨hzero, -⟩
        · rw [heq, if_neg howner]
        · rw [hzero] at hvideo
          exact absurd (by decide) hvideo

/-- The page table and the memory chips are those of the cartridge. -/
structure Wired (b : Board) : Prop where
  slot : ∀ cartridge, b.cartridge = some cartridge → cartridge.slot = some romSlot
  pages : b.pages = wiring b.cartridge
  chips : ∃ ram, b.store.chips = #[ram, image b.cartridge]

theorem new_wired (tia : Tia) (ram : ByteArray) (riot : Riot) (journal : Journal) :
    (Board.new tia ram riot journal).Wired where
  slot := nofun
  pages := rfl
  chips := ⟨ram, rfl⟩

theorem Wired.claims {b : Board} (h : b.Wired) {cartridge : Cartridge}
    (hcartridge : b.cartridge = some cartridge) :
    cartridge.Claims romSlot basePages b.pages := by
  refine ⟨h.slot cartridge hcartridge, ?_⟩
  rw [h.pages, hcartridge]
  rfl

theorem insert_wired {b : Board} (h : b.Wired) (cartridge : Cartridge) :
    (b.insert cartridge).2.Wired := by
  obtain ⟨ram, hram⟩ := h.chips
  constructor
  · rintro inserted hinserted
    obtain rfl := Option.some.inj hinserted
    rfl
  · have hbase := installTia_unbind_wiring b.cartridge
    rw [← h.pages] at hbase
    simp only [insert, hbase]
    rfl
  · refine ⟨ram, ?_⟩
    simp only [insert, Store.replace, hram]
    rfl

@[simp]
theorem insert_tia (b : Board) (cartridge : Cartridge) : (b.insert cartridge).2.tia = b.tia := by
  simp only [insert]

theorem Wired.ram {b : Board} (h : b.Wired) : b.store = ⟨#[b.ram, image b.cartridge]⟩ := by
  obtain ⟨ram, hchips⟩ := h.chips
  have hram : b.ram = ram := by
    rw [Board.ram, Store.contents, hchips]
    rfl
  rw [hram, ← hchips]

/-- Taking over what has become of the cartridge. -/
theorem Wired.adopt {b : Board} (h : b.Wired) {cartridge after : Cartridge} {pages : PageTable}
    (hcartridge : b.cartridge = some cartridge)
    (hfollows : cartridge.Follows romSlot basePages after pages) (c : Board)
    (hafter : c.cartridge = some after) (hpages : c.pages = pages) (hstore : c.store = b.store) :
    c.Wired := by
  constructor
  · intro other hother
    obtain rfl := Option.some.inj (hafter.symm.trans hother)
    exact hfollows.claims.slot_eq
  · rw [hpages, hafter, hfollows.claims.pages_eq]
    rfl
  · obtain ⟨ram, hram⟩ := h.chips
    refine ⟨ram, ?_⟩
    rw [hstore, hram, hafter, hcartridge, image, image, hfollows.rom_eq]

/-- Whatever leaves cartridge, pages and memory chips alone. -/
theorem Wired.of_eq {b c : Board} (h : b.Wired) (hcartridge : c.cartridge = b.cartridge)
    (hpages : c.pages = b.pages) (hstore : c.store = b.store) : c.Wired := by
  obtain ⟨hslot, hwiring, hchips⟩ := h
  constructor
  · rwa [hcartridge]
  · rw [hpages, hcartridge, hwiring]
  · rwa [hstore, hcartridge]

theorem Wired.readCartridge {b : Board} (h : b.Wired) (address : UInt16) :
    (b.readCartridge address).Wired := by
  unfold Board.readCartridge
  split
  · exact h.of_eq rfl rfl rfl
  · next cartridge hcartridge =>
    exact h.adopt hcartridge ((h.claims hcartridge).touch address) _ rfl rfl rfl

theorem Wired.writeCartridge {b : Board} (h : b.Wired) (address : UInt16) (value : UInt8) :
    (b.writeCartridge address value).Wired := by
  unfold Board.writeCartridge
  split
  · exact h
  · next cartridge hcartridge =>
    exact h.adopt hcartridge ((h.claims hcartridge).write address value) _ rfl rfl rfl

theorem Wired.read {b : Board} (h : b.Wired) (address : UInt16) : (b.read address).Wired := by
  unfold Board.read
  split
  · exact h.of_eq rfl rfl rfl
  · unfold readDevice
    split_ifs
    · exact (h.readCartridge address).of_eq rfl rfl rfl
    · exact h.of_eq rfl rfl rfl
    · exact h.of_eq rfl rfl rfl

theorem Wired.writeDevice {b : Board} (h : b.Wired) (id : DeviceId) (address : UInt16)
    (value : UInt8) : (b.writeDevice id address value).Wired := by
  unfold Board.writeDevice
  dsimp only
  split_ifs
  · exact (h.writeCartridge address value).of_eq rfl rfl rfl
  · exact h.writeCartridge address value
  · exact h.of_eq rfl rfl rfl
  · exact h.of_eq rfl rfl rfl

theorem Wired.write {b : Board} (h : b.Wired) (address : UInt16) (value : UInt8) :
    (b.write address value).Wired := by
  rcases hwrite : (b.pages.binding (PageTable.pageOf address)).write with _ | ⟨chip, base⟩ | id
  · simp only [Board.write, PageTable.routeWrite, hwrite]
    exact h.of_eq rfl rfl rfl
  · have hchip : chip = ramChip := by
      rw [h.pages] at hwrite
      exact wiring_write_eq_direct hwrite
    obtain ⟨ram, hram⟩ := h.chips
    simp only [Board.write, PageTable.routeWrite, hwrite]
    refine ⟨h.slot, h.pages, ?_⟩
    simp only [Store.write, hram, hchip]
    exact ⟨_, rfl⟩
  · simp only [Board.write, PageTable.routeWrite, hwrite]
    exact (h.writeDevice id address value).of_eq rfl rfl rfl

/-- The wiring outlasts whatever the processor does. -/
theorem keeps_wired : Bus.Keeps Wired where
  read address h := h.read address
  write address value h := h.write address value
  elapse _ h := h.of_eq rfl rfl rfl

theorem Wired.reset {b : Board} (h : b.Wired) : b.reset.Wired := by
  unfold Board.reset
  dsimp only
  split
  · next hcartridge => exact h.of_eq rfl rfl rfl
  · next cartridge hcartridge =>
    exact h.adopt hcartridge (h.claims hcartridge).reset _ rfl rfl rfl

/-! ## The video chip -/

/-- Whether a write to an address reaches the video chip. -/
def ReachesVideo (b : Board) (address : UInt16) : Prop :=
  ∃ id, (b.pages.binding (PageTable.pageOf address)).write = .device id ∧ id ≠ riotId ∧
    (id = cartridgeId → address &&& 0x1000 = 0)

theorem inVideo_iff (address : UInt16) :
    address &&& 0x1080 = 0 ↔ address.toNat % 8192 < 4096 ∧ address.toNat % 256 < 128 := by
  have hlines : address &&& 0x1080 = 0 ↔ address &&& 0x1000 = 0 ∧ address &&& 0x0080 = 0 := by
    simp only [← UInt16.toNat_inj, UInt16.toNat_and]
    change address.toNat &&& (0x1000 ||| 0x0080) = 0 ↔ _
    rw [Nat.and_or_distrib_left, Nat.or_eq_zero_iff]
    rfl
  have htwelve : address &&& 0x1000 = 0 ↔ address.toNat / 4096 % 2 = 0 :=
    and_two_pow_eq_zero_iff address 12 (by decide)
  have hseven : address &&& 0x0080 = 0 ↔ address.toNat / 128 % 2 = 0 :=
    and_two_pow_eq_zero_iff address 7 (by decide)
  rw [hlines, htwelve, hseven]
  omega

/-- All addresses of a page are the video chip's, or none. -/
theorem inVideo_pageOf_iff (address : UInt16) :
    PageTable.addressOf (PageTable.pageOf address) &&& 0x1080 = 0 ↔ address &&& 0x1080 = 0 := by
  rw [inVideo_iff, inVideo_iff, PageTable.toNat_addressOf, PageTable.val_pageOf]
  omega

theorem Wired.reachesVideo {b : Board} (h : b.Wired) {address : UInt16}
    (hvideo : address &&& 0x1080 = 0) : b.ReachesVideo address := by
  let page := PageTable.pageOf address
  have hlines := (inVideo_iff address).mp hvideo
  have hlow : address &&& 0x1000 = 0 := by
    by_contra hwindow
    have hupper := (inWindow_iff address).mp hwindow
    omega
  have hpage : (page : Nat) < 64 := by
    rw [PageTable.val_pageOf]
    omega
  have hfirst : PageTable.addressOf page &&& 0x1080 = 0 := (inVideo_pageOf_iff address).mpr hvideo
  have hbase := binding_basePages_of_video hfirst
  have hriot : tiaId ≠ riotId ∧ cartridgeId ≠ riotId := by decide
  have hwrite : (b.pages.binding page).write = .device tiaId ∨
      (b.pages.binding page).write = .device cartridgeId := by
    rw [h.pages]
    cases b.cartridge with
    | none => exact .inl (congrArg Binding.write hbase)
    | some cartridge =>
      rcases binding_wiring_of_lt cartridge hpage with heq | ⟨-, heq⟩
      · exact .inl (congrArg Binding.write (heq.trans hbase))
      · exact .inr (congrArg Binding.write heq)
  rcases hwrite with hwrite | hwrite
  · exact ⟨tiaId, hwrite, hriot.1, fun _ ↦ hlow⟩
  · exact ⟨cartridgeId, hwrite, hriot.2, fun _ ↦ hlow⟩

/-- The video chip answers to its own addresses and to no others, whatever cartridge is inserted. -/
theorem Wired.reachesVideo_iff {b : Board} (h : b.Wired) (address : UInt16) :
    b.ReachesVideo address ↔ address &&& 0x1080 = 0 := by
  refine ⟨?_, h.reachesVideo⟩
  rintro ⟨id, hid, hriot, hcartridge⟩
  let page := PageTable.pageOf address
  rw [← inVideo_pageOf_iff]
  have hbase (hdevice : (basePages.binding page).write = .device id) :
      PageTable.addressOf page &&& 0x1080 = 0 := by
    by_contra hother
    rw [binding_basePages_eq, if_neg hother] at hdevice
    split_ifs at hdevice <;> cases hdevice
    exact hriot rfl
  rw [h.pages] at hid
  rcases hslot : b.cartridge with _ | cartridge
  · rw [hslot] at hid
    exact hbase hid
  · rw [hslot] at hid
    by_cases hpage : 64 ≤ (page : Nat)
    · -- All of the window is the cartridge's.
      rw [binding_wiring_of_le cartridge hpage, Cartridge.windowBinding] at hid
      have hclaimed : id = cartridgeId := by
        split_ifs at hid <;> exact (Access.device.inj hid).symm
      have hlow : ¬ address &&& 0x1000 ≠ 0 := not_not.mpr (hcartridge hclaimed)
      rw [inWindow_iff] at hlow
      rw [PageTable.val_pageOf] at hpage
      omega
    · rcases binding_wiring_of_lt cartridge (Nat.lt_of_not_le hpage) with heq | ⟨hbottom, -⟩
      · exact hbase (heq ▸ hid)
      · rw [hbottom]
        decide

/-- What a write makes of a board whose video chip answers it. -/
structure Answered (b : Board) (answer : Tia × Tia.Response) (after : Board) : Prop where
  tia : after.tia = answer.1
  stop : after.stop = (b.stop || answer.2.stop)
  cycles : after.cycles = min (b.cycles + answer.2.stall) cycleLimit
  sound : after.sound = (b.respond answer.2).sound

theorem write_of_reachesVideo {b : Board} {address : UInt16} (h : b.ReachesVideo address)
    (value : UInt8) :
    b.Answered (b.tia.write b.cycles b.afterRead address value) (b.write address value) := by
  obtain ⟨id, hid, hriot, hcartridge⟩ := h
  simp only [Board.write, PageTable.routeWrite, hid, writeDevice]
  by_cases hslot : id = cartridgeId
  · simp only [if_pos hslot, if_pos (hcartridge hslot)]
    unfold writeCartridge
    split <;> exact ⟨rfl, rfl, rfl, rfl⟩
  · simp only [if_neg hslot, if_neg hriot]
    exact ⟨rfl, rfl, rfl, rfl⟩

/-- Video chip, clock and sound log are left alone. -/
structure Spared (b after : Board) : Prop where
  tia : after.tia = b.tia
  stop : after.stop = b.stop
  cycles : after.cycles = b.cycles
  sound : after.sound = b.sound

theorem write_of_not_reachesVideo {b : Board} {address : UInt16} (h : ¬ b.ReachesVideo address)
    (value : UInt8) : b.Spared (b.write address value) := by
  rcases hwrite : (b.pages.binding (PageTable.pageOf address)).write with _ | ⟨chip, base⟩ | id
  · simp only [Board.write, PageTable.routeWrite, hwrite]
    exact ⟨rfl, rfl, rfl, rfl⟩
  · simp only [Board.write, PageTable.routeWrite, hwrite]
    exact ⟨rfl, rfl, rfl, rfl⟩
  · simp only [Board.write, PageTable.routeWrite, hwrite, writeDevice]
    by_cases hriot : id = riotId
    · have hslot : id ≠ cartridgeId := by
        rw [hriot]
        decide
      simp only [if_neg hslot, if_pos hriot]
      exact ⟨rfl, rfl, rfl, rfl⟩
    · have hslot : id = cartridgeId ∧ address &&& 0x1000 ≠ 0 := by
        by_contra hnot
        exact h ⟨id, hwrite, hriot, fun hid ↦ by_contra fun hlow ↦ hnot ⟨hid, hlow⟩⟩
      simp only [if_pos hslot.1, if_neg hslot.2]
      unfold writeCartridge
      split <;> exact ⟨rfl, rfl, rfl, rfl⟩

@[simp]
theorem write_afterRead (b : Board) (address : UInt16) (value : UInt8) :
    (b.write address value).afterRead = false := by
  unfold Board.write
  split <;> rfl

theorem write_dataBus (b : Board) (address : UInt16) (value : UInt8) :
    (b.write address value).dataBus = value := by
  unfold Board.write
  split <;> rfl

@[simp]
theorem read_afterRead (b : Board) (address : UInt16) : (b.read address).afterRead = true := by
  unfold Board.read
  split <;> rfl

@[simp]
theorem read_sound (b : Board) (address : UInt16) : (b.read address).sound = b.sound := by
  unfold Board.read readDevice
  split
  · rfl
  · split_ifs
    · unfold readCartridge
      split <;> rfl
    · rfl
    · rfl

/-- A read lets the beam catch up at most. -/
theorem read_keeps (b : Board) (address : UInt16) :
    ((b.read address).tia = b.tia ∨
        (b.read address).tia = b.tia.catchUp (Tia.clockOf b.cycles)) ∧
      (b.read address).stop = b.stop ∧ (b.read address).cycles = b.cycles := by
  unfold Board.read readDevice
  split
  · exact ⟨.inl rfl, rfl, rfl⟩
  · split_ifs
    · unfold readCartridge
      split <;> exact ⟨.inl rfl, rfl, rfl⟩
    · exact ⟨.inl rfl, rfl, rfl⟩
    · exact ⟨.inr rfl, rfl, rfl⟩

end Board

end Vcs
