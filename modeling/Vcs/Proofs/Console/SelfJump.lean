import Vcs.Proofs.Console.Pump

/-!
# A Jump to Itself

A cartridge of two kilobytes has no banks, so every read of the window is served by memory and shows the byte of
the image at the last eleven lines of the address.  That is enough to follow a program that touches nothing but
the window.  Main statement: a machine whose program jumps to itself never gets any further.  Every call of the
frame pump takes its whole budget, reports an overrun and leaves the frame unfinished, and all it does to the
board is to let time pass.
-/

namespace Vcs

namespace Cartridge

/-- An image of two kilobytes. -/
def imageOf (bytes : Nat → UInt8) : ByteArray :=
  ⟨.ofFn fun offset : Fin 2048 ↦ bytes offset⟩

/-- The cartridge with that image. -/
def ofBytes (bytes : Nat → UInt8) : Cartridge :=
  { scheme := .twoK, rom := (imageOf bytes).extract 0 2048, bank := 0 }

theorem size_imageOf (bytes : Nat → UInt8) : (imageOf bytes).size = 2048 :=
  Array.size_ofFn

theorem withScheme_imageOf (bytes : Nat → UInt8) :
    withScheme (imageOf bytes) .twoK = .ok (ofBytes bytes) := by
  simp only [withScheme, size_imageOf, BankScheme.romSize]
  rfl

theorem getElem?_ofBytes (bytes : Nat → UInt8) {offset : Nat} (h : offset < 2048) :
    (ofBytes bytes).rom[offset]? = some (bytes offset) := by
  -- The size stays a variable, or Lean would count to it.
  have hbyte (count : Nat) (hoffset : offset < count) :
      (⟨.ofFn fun index : Fin count ↦ bytes index⟩ : ByteArray)[offset]? = some (bytes offset) := by
    have hsize : offset < (⟨.ofFn fun index : Fin count ↦ bytes index⟩ : ByteArray).size := by
      rwa [ByteArray.size, Array.size_ofFn]
    rw [getElem?_pos _ offset hsize]
    exact congrArg some (Array.getElem_ofFn hsize)
  have hrom : BankScheme.twoK.romSize = 2048 := rfl
  have hholds : (ofBytes bytes).Holds (imageOf bytes) .twoK := by
    refine ⟨rfl, rfl, ?_, ?_⟩
    · rw [hrom]
      decide
    · rw [hrom, size_imageOf]
  rw [hholds.getElem?_rom h]
  exact hbyte 2048 h

end Cartridge

namespace Board

/-- The board has a cartridge of two kilobytes with these bytes. -/
structure Shows (bytes : Nat → UInt8) (b : Board) : Prop where
  wired : b.Wired
  cartridge : ∃ cartridge, b.cartridge = some cartridge ∧ cartridge.scheme = .twoK ∧
    ∀ offset < 2048, cartridge.rom[offset]? = some (bytes offset)

/-- The board after a cycle that leaves a byte on the data bus. -/
def showing (b : Board) (byte : UInt8) : Board :=
  { b.elapse 1 with dataBus := byte, afterRead := true }

/-- What a board is made of, what its memory holds and how its controls are set has not changed. -/
structure KeepsSetup (b c : Board) : Prop where
  cartridge : c.cartridge = b.cartridge
  pages : c.pages = b.pages
  store : c.store = b.store
  random : c.riot.random = b.riot.random
  ports : c.ports = b.ports
  switches : c.switches = b.switches

theorem KeepsSetup.trans {a b c : Board} (hfirst : a.KeepsSetup b) (hsecond : b.KeepsSetup c) :
    a.KeepsSetup c :=
  ⟨hsecond.cartridge.trans hfirst.cartridge, hsecond.pages.trans hfirst.pages,
    hsecond.store.trans hfirst.store, hsecond.random.trans hfirst.random,
    hsecond.ports.trans hfirst.ports, hsecond.switches.trans hfirst.switches⟩

/-- Nothing has happened to a board but time and reads of the window. -/
structure Coasts (b c : Board) : Prop extends KeepsSetup b c where
  drawing : c.tia.frame.drawing = b.tia.frame.drawing

namespace Coasts

variable {a b c : Board}

theorem refl (b : Board) : b.Coasts b :=
  ⟨⟨rfl, rfl, rfl, rfl, rfl, rfl⟩, rfl⟩

theorem trans (hfirst : a.Coasts b) (hsecond : b.Coasts c) : a.Coasts c :=
  ⟨hfirst.toKeepsSetup.trans hsecond.toKeepsSetup, hsecond.drawing.trans hfirst.drawing⟩

theorem elapse (h : a.Coasts b) (cycles : Nat) : a.Coasts (b.elapse cycles) :=
  h.trans ⟨⟨rfl, rfl, rfl, rfl, rfl, rfl⟩, rfl⟩

theorem showing (h : a.Coasts b) (byte : UInt8) : a.Coasts (b.showing byte) :=
  h.trans ⟨⟨rfl, rfl, rfl, rfl, rfl, rfl⟩, rfl⟩

theorem note (h : a.Coasts b) (event : Event) : a.Coasts (b.note event) :=
  h.trans ⟨⟨rfl, rfl, rfl, rfl, rfl, rfl⟩, rfl⟩

end Coasts

namespace Shows

variable {bytes : Nat → UInt8} {b c : Board}

theorem keepsSetup (h : b.Shows bytes) (hkeeps : b.KeepsSetup c) : c.Shows bytes := by
  refine ⟨h.wired.of_eq hkeeps.cartridge hkeeps.pages hkeeps.store, ?_⟩
  rw [hkeeps.cartridge]
  exact h.cartridge

theorem coasts (h : b.Shows bytes) (hcoasts : b.Coasts c) : c.Shows bytes :=
  h.keepsSetup hcoasts.toKeepsSetup

theorem insert (h : b.Wired) (bytes : Nat → UInt8) :
    (b.insert (Cartridge.ofBytes bytes)).2.Shows bytes :=
  ⟨insert_wired h _, { Cartridge.ofBytes bytes with slot := some romSlot }, rfl, rfl,
    fun _ hoffset ↦ Cartridge.getElem?_ofBytes bytes hoffset⟩

theorem reset (h : b.Shows bytes) : b.reset.Shows bytes := by
  obtain ⟨cartridge, hslot, hscheme, hrom⟩ := h.cartridge
  refine ⟨h.wired.reset, rewound cartridge, ?_, hscheme, hrom⟩
  rw [reset_cartridge, hslot]
  rfl

/-- A read of the window is answered by memory. -/
theorem read (h : b.Shows bytes) {address : UInt16} (hwindow : address &&& 0x1000 ≠ 0) :
    b.read address = { b with dataBus := bytes (address.toNat % 2048), afterRead := true } := by
  obtain ⟨cartridge, hslot, hscheme, hrom⟩ := h.cartridge
  let page := PageTable.pageOf address
  have hbinding : (b.pages.binding page).read =
      .direct romChip (PageTable.addressOf page &&& 0x07FF).toNat := by
    have hinBank : (cartridge.inBank romSlot cartridge.bank).scheme = .twoK := hscheme
    rw [h.wired.pages, hslot, binding_wiring_of_le cartridge (Cartridge.le_pageOf hwindow)]
    simp only [Cartridge.windowBinding, hinBank, BankScheme.firstHotspot?, Cartridge.romOffset]
    rfl
  have hoffset : (PageTable.addressOf page &&& 0x07FF).toNat + PageTable.offsetOf address =
      address.toNat % 2048 := by
    rw [toNat_and_0x07FF, PageTable.offsetOf_eq, PageTable.toNat_addressOf, PageTable.val_pageOf]
    omega
  have hcontents : b.store.contents romChip = cartridge.rom := by
    rw [h.wired.ram, hslot]
    rfl
  have hbyte : b.store.read romChip (address.toNat % 2048) = bytes (address.toNat % 2048) := by
    rw [Store.read_eq_contents, hcontents, hrom _ (Nat.mod_lt _ (by decide)), Option.getD_some]
  have hroute : b.pages.routeRead b.store address = .data (bytes (address.toNat % 2048)) := by
    rw [PageTable.routeRead, hbinding]
    exact congrArg Routed.data ((congrArg _ hoffset).trans hbyte)
  rw [Board.read, hroute]

theorem elapse_read (h : b.Shows bytes) {address : UInt16} (hwindow : address &&& 0x1000 ≠ 0) :
    (b.elapse 1).read address = b.showing (bytes (address.toNat % 2048)) :=
  (h.coasts ((Coasts.refl b).elapse 1)).read hwindow

end Shows

end Board

/-- A jump to itself where the window begins, and a vector that points there. -/
def selfJump (offset : Nat) : UInt8 :=
  if offset = 0 then 0x4C else if offset = 2 ∨ offset = 0x7FD then 0x10 else 0

namespace Processor

section Shows

variable {bytes : Nat → UInt8} {p : Processor Board}

theorem peek_of_shows (h : p.bus.Shows bytes) {address : UInt16} (hwindow : address &&& 0x1000 ≠ 0) :
    p.peek address =
      { p with signalled := p.signalled + 1, bus := p.bus.showing (bytes (address.toNat % 2048)) } := by
  rw [← h.elapse_read hwindow]
  rfl

theorem fetch_of_shows (h : p.bus.Shows bytes) {pc : UInt16} (hpc : p.registers.pc = pc)
    (hwindow : pc &&& 0x1000 ≠ 0) :
    p.fetch.latch = bytes (pc.toNat % 2048) ∧ p.fetch.registers.pc = pc + 1 ∧
      p.bus.Coasts p.fetch.bus := by
  subst hpc
  rw [fetch, peek_of_shows h hwindow]
  exact ⟨rfl, rfl, (Board.Coasts.refl _).showing _⟩

/-- A reset fetches the vector from the end of the image. -/
theorem reset_of_shows (h : p.bus.Shows bytes) :
    p.reset.registers.pc = wordOf (bytes 0x7FC) (bytes 0x7FD) ∧ p.bus.Coasts p.reset.bus := by
  let cleared : Processor Board := { p with registers := {}, signalled := 0, surcharge := 0 }
  have hlow := peek_of_shows (p := cleared) h (by decide : (0xFFFC : UInt16) &&& 0x1000 ≠ 0)
  have hfirst : p.bus.Coasts (cleared.peek 0xFFFC).bus := by
    rw [hlow]
    exact (Board.Coasts.refl _).showing _
  have hhigh := peek_of_shows (h.coasts hfirst) (by decide : (0xFFFC + 1 : UInt16) &&& 0x1000 ≠ 0)
  have hsecond : p.bus.Coasts ((cleared.peek 0xFFFC).peek (0xFFFC + 1)).bus := by
    rw [hhigh]
    exact hfirst.showing _
  have htarget : wordOf (cleared.peek 0xFFFC).latch ((cleared.peek 0xFFFC).peek (0xFFFC + 1)).latch =
      wordOf (bytes 0x7FC) (bytes 0x7FD) := by
    rw [hhigh, hlow]
    rfl
  exact ⟨htarget, hsecond⟩

end Shows

/-- The program counter is at the jump, in the middle of a frame. -/
structure Spins (p : Processor Board) : Prop where
  shows : p.bus.Shows selfJump
  pc : p.registers.pc = 0x1000
  drawing : p.bus.tia.frame.drawing = true

variable {p : Processor Board}

theorem jump_of_selfJump (h : p.bus.Shows selfJump) (hpc : p.registers.pc = 0x1001) :
    (p.jump .absolute).registers.pc = 0x1000 ∧ p.bus.Coasts (p.jump .absolute).bus := by
  obtain ⟨hlow, hnext, hfirst⟩ := fetch_of_shows h hpc (by decide)
  obtain ⟨hhigh, -, hsecond⟩ := fetch_of_shows (h.coasts hfirst) hnext (by decide)
  have hjump : p.jump .absolute = p.fetch.fetch.land (wordOf p.fetch.latch p.fetch.fetch.latch) := rfl
  have htarget : wordOf p.fetch.latch p.fetch.fetch.latch = 0x1000 := by
    rw [hlow, hhigh]
    decide
  have hfetched : p.bus.Coasts p.fetch.fetch.bus := hfirst.trans hsecond
  have hread := (h.coasts hfetched).read (by decide : (0x1000 : UInt16) &&& 0x1000 ≠ 0)
  have hlanded : (p.fetch.fetch.land 0x1000).bus = p.fetch.fetch.bus.read 0x1000 := rfl
  rw [hjump, htarget]
  refine ⟨rfl, ?_⟩
  rw [hlanded, hread]
  exact hfetched.trans ⟨⟨rfl, rfl, rfl, rfl, rfl, rfl⟩, rfl⟩

theorem settle_coasts {b : Board} (h : b.Coasts p.bus) (cost : Nat) :
    (p.settle cost).registers = p.registers ∧ b.Coasts (p.settle cost).bus := by
  unfold settle
  dsimp only
  split
  · exact ⟨rfl, h⟩
  · exact ⟨rfl, h.elapse _⟩

/-- The jump takes the processor back to where it was. -/
theorem Spins.step (h : p.Spins) :
    (∃ cycles, p.step.1 = .ok cycles) ∧ p.step.2.Spins ∧ p.bus.Coasts p.step.2.bus := by
  obtain ⟨hopcode, hnext, hfetched⟩ := fetch_of_shows h.shows h.pc (by decide)
  have hdecoded : Instruction.decode p.fetchOpcode.opcode = ⟨.jmp, .absolute, 3, .fixed⟩ := by
    have hlatched : p.fetchOpcode.opcode = p.fetch.latch := rfl
    rw [hlatched, hopcode]
    decide
  obtain ⟨hback, hjumped⟩ := jump_of_selfJump (p := p.fetchOpcode) (h.shows.coasts hfetched) hnext
  obtain ⟨hregisters, hsettled⟩ := settle_coasts (hfetched.trans hjumped) 3
  have hstep : ∃ cycles, p.step =
      (.ok cycles, ((p.fetchOpcode.jump .absolute).settle 3).retire) := by
    rw [Processor.step]
    dsimp only
    rw [hdecoded]
    exact ⟨_, rfl⟩
  obtain ⟨cycles, hstep⟩ := hstep
  rw [hstep]
  refine ⟨⟨cycles, rfl⟩, ⟨h.shows.coasts hsettled, ?_, hsettled.drawing.trans h.drawing⟩, hsettled⟩
  exact (congrArg Registers.pc hregisters).trans hback

theorem Spins.step_stop (h : p.Spins) (hstop : p.bus.stop = false) : p.step.2.bus.stop = false := by
  have hstops : p.bus.StopsWhenOver := by
    rw [Board.StopsWhenOver, hstop, h.drawing]
    rfl
  have hnext : p.step.2.bus.StopsWhenOver := step_keeps Board.keeps_stopsWhenOver hstops
  rw [hnext, h.step.2.1.drawing]
  rfl

/-- It never gets any further. -/
theorem Spins.runFrom (h : p.Spins) (hstop : p.bus.stop = false) (done budget : Nat) :
    (∃ count, (p.runFrom done budget).1 = .ok count) ∧ (p.runFrom done budget).2.Spins ∧
      p.bus.Coasts (p.runFrom done budget).2.bus := by
  induction budget generalizing p done with
  | zero => exact ⟨⟨done, rfl⟩, h, .refl _⟩
  | succ budget ih =>
    obtain ⟨⟨cycles, hresult⟩, hnext, hcoasts⟩ := h.step
    have hgoesOn := h.step_stop hstop
    have hrun : p.runFrom done (budget + 1) = p.step.2.runFrom (done + 1) budget := by
      rcases hstep : p.step with ⟨result, next⟩
      rw [hstep] at hresult hgoesOn
      cases hresult
      have hrequest : Bus.stopRequested next.bus = false := hgoesOn
      simp only [Processor.runFrom, hstep, hrequest, Bool.false_eq_true, if_false]
    obtain ⟨hlast, hspins, hrest⟩ := ih hnext hgoesOn (done + 1)
    rw [hrun]
    exact ⟨hlast, hspins, hcoasts.trans hrest⟩

end Processor

namespace Machine

theorem runSlices_of_spins {core : Processor Board} (h : core.Spins) (budget : Nat) :
    (runSlices core budget).1 = .ok 0 ∧ (runSlices core budget).2.Spins ∧
      core.bus.Coasts (runSlices core budget).2.bus := by
  induction budget generalizing core with
  | zero => exact ⟨rfl, h, .refl _⟩
  | succ budget ih =>
    have hcleared : core.bus.Coasts { core.bus with stop := false } := ⟨⟨rfl, rfl, rfl, rfl, rfl, rfl⟩, rfl⟩
    have hstart : Processor.Spins { core with bus := { core.bus with stop := false } } :=
      ⟨h.shows.coasts hcleared, h.pc, h.drawing⟩
    obtain ⟨⟨count, hresult⟩, hnext, hcoasts⟩ := hstart.runFrom rfl 0 sliceInstructions
    have hslices : runSlices core (budget + 1) = runSlices (runSlice core).2 budget := by
      change (runSlice core).1 = .ok count at hresult
      change (runSlice core).2.Spins at hnext
      rcases hslice : runSlice core with ⟨result, next⟩
      rw [hslice] at hresult hnext
      cases hresult
      have hdrawing : next.bus.tia.frame.drawing = true := hnext.drawing
      simp only [runSlices, hslice, hdrawing, if_true]
    obtain ⟨hleft, hspins, hrest⟩ := ih hnext
    rw [hslices]
    exact ⟨hleft, hspins, (hcleared.trans hcoasts).trans hrest⟩

theorem reset_of_shows {bytes : Nat → UInt8} {m : Machine} (h : m.board.Shows bytes) :
    m.reset.board.Shows bytes ∧ m.reset.core.registers.pc = wordOf (bytes 0x7FC) (bytes 0x7FD) ∧
      m.reset.board.tia.frame.drawing = false := by
  obtain ⟨hpc, hcoasts⟩ := Processor.reset_of_shows (p := { m.core with bus := m.board.reset }) h.reset
  obtain ⟨event, hboard⟩ := m.reset_board
  have hnoted : m.board.reset.Coasts m.reset.board := by
    rw [hboard]
    exact hcoasts.note event
  refine ⟨h.reset.coasts hnoted, hpc, ?_⟩
  rw [hnoted.drawing, Board.reset_tia]
  rfl

/-- The machine is about to execute the jump. -/
structure Spins (m : Machine) : Prop where
  shows : m.board.Shows selfJump
  pc : m.core.registers.pc = 0x1000

section

variable (bytes : Nat → UInt8) (config : Config) (power : Riot.PowerOn) (journal : Journal)

/-- A machine that has been switched on with these bytes inserted. -/
def running : Machine :=
  ((off config power journal).mapBoard fun board ↦ (board.insert (.ofBytes bytes)).2).reset

theorem running_reachable : Reachable (running bytes config power journal) :=
  ((Reachable.off config power journal).insert (Cartridge.withScheme_imageOf bytes)).reset

theorem running_shows :
    let m := running bytes config power journal
    m.board.Shows bytes ∧ m.core.registers.pc = wordOf (bytes 0x7FC) (bytes 0x7FD) ∧
      m.board.tia.frame.drawing = false := by
  have hwired := (Reachable.off config power journal).kept.wired
  unfold running
  generalize off config power journal = m at hwired ⊢
  exact reset_of_shows (Board.Shows.insert hwired bytes)

theorem running_spins : (running selfJump config power journal).Spins := by
  obtain ⟨hshows, hpc, -⟩ := running_shows selfJump config power journal
  exact ⟨hshows, hpc.trans (by decide)⟩

end

/-- What a machine is made of and how it is configured has not changed. -/
structure KeepsSetup (m n : Machine) : Prop where
  board : m.board.KeepsSetup n.board
  config : n.config = m.config
  television : n.television = m.television
  yStart : n.yStart = m.yStart
  height : n.height = m.height

theorem openFrame_keepsSetup (m : Machine) :
    m.openFrame.core.registers = m.core.registers ∧ m.KeepsSetup m.openFrame := by
  unfold openFrame
  split <;> exact ⟨rfl, ⟨rfl, rfl, rfl, rfl, rfl, rfl⟩, rfl, rfl, rfl, rfl⟩

theorem openFrame_spins {m : Machine} (h : m.Spins) : m.openFrame.core.Spins := by
  obtain ⟨hregisters, hkeeps⟩ := m.openFrame_keepsSetup
  have hpc : m.openFrame.core.registers.pc = 0x1000 := (congrArg Registers.pc hregisters).trans h.pc
  exact ⟨h.shows.keepsSetup hkeeps.board, hpc, m.openFrame_drawing⟩

theorem closeFrame_coasts (m : Machine) (left : Nat) :
    m.board.Coasts (m.closeFrame left).2.board ∧ m.KeepsSetup (m.closeFrame left).2 ∧
      (m.closeFrame left).2.core.registers = m.core.registers := by
  have hclosed : m.KeepsSetup (m.closeFrame left).2 ∧
      (m.closeFrame left).2.core.registers = m.core.registers := by
    unfold closeFrame reportOverrun
    dsimp only
    split
    · split <;> exact ⟨⟨⟨rfl, rfl, rfl, rfl, rfl, rfl⟩, rfl, rfl, rfl, rfl⟩, rfl⟩
    · exact ⟨⟨⟨rfl, rfl, rfl, rfl, rfl, rfl⟩, rfl, rfl, rfl, rfl⟩, rfl⟩
  exact ⟨⟨hclosed.1.board, (m.closeFrame_closes left).drawing⟩, hclosed⟩

/-- A call of the frame pump takes its whole budget. -/
theorem processFrame_of_spins {m : Machine} (h : m.Spins) :
    m.processFrame.1 = .ok .overrun ∧ m.processFrame.2.Spins ∧
      m.processFrame.2.board.tia.frame.drawing = true ∧ m.KeepsSetup m.processFrame.2 := by
  obtain ⟨-, hopened⟩ := m.openFrame_keepsSetup
  obtain ⟨hleft, hspins, hcoasts⟩ := runSlices_of_spins (openFrame_spins h) sliceBudget
  rcases hrun : runSlices m.openFrame.core sliceBudget with ⟨result, core⟩
  rw [hrun] at hleft hspins hcoasts
  cases hleft
  let spent : Machine := { m.openFrame with core := core }
  have hframe : m.processFrame = (.ok (spent.closeFrame 0).1, (spent.closeFrame 0).2) := by
    rw [processFrame, hrun]
  have hstatus : (spent.closeFrame 0).1 = .overrun := by
    have hnot := mt (spent.closeFrame_closes 0).complete_iff.mp fun hleft ↦ hleft.1 rfl
    generalize (spent.closeFrame 0).1 = status at hnot
    cases status with
    | complete => exact absurd rfl hnot
    | overrun => rfl
  obtain ⟨hclosed, hkept, hregisters⟩ := spent.closeFrame_coasts 0
  have hpc : (spent.closeFrame 0).2.core.registers.pc = 0x1000 :=
    (congrArg Registers.pc hregisters).trans hspins.pc
  have hboard : m.board.KeepsSetup (spent.closeFrame 0).2.board :=
    hopened.board.trans (hcoasts.trans hclosed).toKeepsSetup
  rw [hframe, hstatus]
  refine ⟨rfl, ⟨hspins.shows.coasts hclosed, hpc⟩, hclosed.drawing.trans hspins.drawing, ?_⟩
  exact ⟨hboard, hkept.config.trans hopened.config, hkept.television.trans hopened.television,
    hkept.yStart.trans hopened.yStart, hkept.height.trans hopened.height⟩

end Machine

end Vcs
