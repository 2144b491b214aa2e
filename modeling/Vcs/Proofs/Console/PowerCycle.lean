import Vcs.Proofs.Console.SelfJump
import Vcs.Proofs.Tia.Tally

/-!
# Forgetting the Past

A reset restores every chip, but it leaves some things where they are: the byte on the data bus, the opcode and
the address of the last operand, and the totals of frames, instructions and cycles.  Main statement: none of
that matters.  Two machines that have nothing in common but what they are made of, the contents of their
memory, the state of the random generator and the positions of their controls do the same after a reset,
whatever is done to them from then on.  The byte on the data bus is overwritten when the processor fetches the
address where it begins; the opcode and the address are set by every instruction before it uses them; and the
totals are only ever added to.
-/

namespace Vcs

/-- Two sound logs agree if both are kept. -/
def SoundsAgree (first second : Option SoundLog) : Prop :=
  ∀ log other, first = some log → second = some other → log = other

theorem SoundsAgree.map {first second : Option SoundLog} (h : SoundsAgree first second)
    (change : SoundLog → SoundLog) : SoundsAgree (first.map change) (second.map change) := by
  rintro log other hfirst hsecond
  obtain ⟨before, hbefore, rfl⟩ := Option.map_eq_some_iff.mp hfirst
  obtain ⟨earlier, hearlier, rfl⟩ := Option.map_eq_some_iff.mp hsecond
  rw [h before earlier hbefore hearlier]

namespace Board

/-- The board without its tally of frames and without what it has been heard and reported to do. -/
def essence (b : Board) : Board :=
  { b with tia := b.tia.tally 0, sound := none, journal := {} }

/-- Two boards that the processor cannot tell apart. -/
structure Alike (b c : Board) : Prop where
  essence_eq : b.essence = c.essence
  sound : SoundsAgree b.sound c.sound

/-- The board with another tally and with other listeners. -/
def posing (b : Board) (count : Nat) (sound : Option SoundLog) (journal : Journal) : Board :=
  { b with tia := b.tia.tally count, sound := sound, journal := journal }

namespace Alike

variable {b c : Board}

/-- Whatever looks at the essence of a board only sees the same. -/
theorem looks (h : b.Alike c) {α : Type} (look : Board → α)
    (hlook : ∀ b : Board, look b.essence = look b) : look b = look c :=
  calc
    look b = look b.essence := (hlook b).symm
    _ = look c.essence := by rw [h.essence_eq]
    _ = look c := hlook c

/-- Whatever changes the essence of a board only leaves boards alike. -/
theorem changes (h : b.Alike c) (change : Board → Board)
    (hchange : ∀ b : Board, (change b).essence = change b.essence)
    (hsound : ∀ b : Board, (change b).sound = b.sound) : (change b).Alike (change c) := by
  refine ⟨?_, ?_⟩
  · calc
      (change b).essence = change b.essence := hchange b
      _ = change c.essence := by rw [h.essence_eq]
      _ = (change c).essence := (hchange c).symm
  · rw [hsound, hsound]
    exact h.sound

theorem eq_posing (h : b.Alike c) :
    c = b.posing c.tia.frame.completed c.sound c.journal ∧ SoundsAgree b.sound c.sound := by
  refine ⟨?_, h.sound⟩
  have hposing : c = c.essence.posing c.tia.frame.completed c.sound c.journal := rfl
  rw [hposing, ← h.essence_eq]
  rfl

theorem elapse (h : b.Alike c) (cycles : Nat) : (b.elapse cycles).Alike (c.elapse cycles) := by
  obtain ⟨hc, hsound⟩ := h.eq_posing
  rw [hc]
  exact ⟨rfl, hsound⟩

theorem note (h : b.Alike c) (event other : Event) : (b.note event).Alike (c.note other) := by
  obtain ⟨hc, hsound⟩ := h.eq_posing
  rw [hc]
  exact ⟨rfl, hsound⟩

theorem respond (h : b.Alike c) (response : Tia.Response) :
    (b.respond response).Alike (c.respond response) := by
  obtain ⟨hc, hsound⟩ := h.eq_posing
  rw [hc]
  rcases hwrite : response.sound with _ | ⟨register, value⟩
  · simp only [Board.respond, hwrite]
    apply elapse
    exact ⟨rfl, hsound⟩
  · simp only [Board.respond, hwrite]
    apply elapse
    exact ⟨rfl, hsound.map _⟩

theorem readTia (h : b.Alike c) (address : UInt16) : (b.readTia address).Alike (c.readTia address) := by
  obtain ⟨hc, hsound⟩ := h.eq_posing
  rw [hc]
  simp only [Board.readTia, posing, Tia.read_tally]
  exact ⟨rfl, hsound⟩

theorem writeTia (h : b.Alike c) (address : UInt16) (value : UInt8) :
    (b.writeTia address value).Alike (c.writeTia address value) := by
  obtain ⟨hc, hsound⟩ := h.eq_posing
  rw [hc]
  simp only [Board.writeTia, posing, Tia.write_tally]
  apply respond
  exact ⟨rfl, hsound⟩

theorem readRiot (h : b.Alike c) (address : UInt16) :
    (b.readRiot address).Alike (c.readRiot address) := by
  obtain ⟨hc, hsound⟩ := h.eq_posing
  rw [hc]
  exact ⟨rfl, hsound⟩

theorem writeRiot (h : b.Alike c) (address : UInt16) (value : UInt8) :
    (b.writeRiot address value).Alike (c.writeRiot address value) := by
  obtain ⟨hc, hsound⟩ := h.eq_posing
  rw [hc]
  exact ⟨rfl, hsound⟩

theorem readCartridge (h : b.Alike c) (address : UInt16) :
    (b.readCartridge address).Alike (c.readCartridge address) := by
  obtain ⟨hc, hsound⟩ := h.eq_posing
  rw [hc]
  rcases hslot : b.cartridge with _ | cartridge
  · have hother : (b.posing c.tia.frame.completed c.sound c.journal).cartridge = none := hslot
    simp only [Board.readCartridge, hslot, hother]
    exact ⟨rfl, hsound⟩
  · have hother : (b.posing c.tia.frame.completed c.sound c.journal).cartridge = some cartridge := hslot
    simp only [Board.readCartridge, hslot, hother]
    exact ⟨rfl, hsound⟩

theorem writeCartridge (h : b.Alike c) (address : UInt16) (value : UInt8) :
    (b.writeCartridge address value).Alike (c.writeCartridge address value) := by
  obtain ⟨hc, hsound⟩ := h.eq_posing
  rw [hc]
  rcases hslot : b.cartridge with _ | cartridge
  · have hother : (b.posing c.tia.frame.completed c.sound c.journal).cartridge = none := hslot
    simp only [Board.writeCartridge, hslot, hother]
    exact ⟨rfl, hsound⟩
  · have hother : (b.posing c.tia.frame.completed c.sound c.journal).cartridge = some cartridge := hslot
    simp only [Board.writeCartridge, hslot, hother]
    exact ⟨rfl, hsound⟩

theorem readDevice (h : b.Alike c) (id : DeviceId) (address : UInt16) :
    (b.readDevice id address).Alike (c.readDevice id address) := by
  unfold Board.readDevice
  split_ifs
  · exact h.readCartridge address
  · exact h.readRiot address
  · exact h.readTia address

theorem writeDevice (h : b.Alike c) (id : DeviceId) (address : UInt16) (value : UInt8) :
    (b.writeDevice id address value).Alike (c.writeDevice id address value) := by
  unfold Board.writeDevice
  dsimp only
  split_ifs
  · exact (h.writeCartridge address value).writeTia address value
  · exact h.writeCartridge address value
  · exact h.writeRiot address value
  · exact h.writeTia address value

theorem read (h : b.Alike c) (address : UInt16) : (b.read address).Alike (c.read address) := by
  have hroute : c.pages.routeRead c.store address = b.pages.routeRead b.store address :=
    (h.looks (fun b ↦ b.pages.routeRead b.store address) fun _ ↦ rfl).symm
  simp only [Board.read, hroute]
  split
  · next value _ =>
    exact h.changes (fun b ↦ { b with dataBus := value, afterRead := true }) (fun _ ↦ rfl) fun _ ↦ rfl
  · next id _ =>
    exact (h.readDevice id address).changes (fun b ↦ { b with afterRead := true }) (fun _ ↦ rfl)
      fun _ ↦ rfl

theorem write (h : b.Alike c) (address : UInt16) (value : UInt8) :
    (b.write address value).Alike (c.write address value) := by
  have hroute : c.pages.routeWrite c.store address value = b.pages.routeWrite b.store address value :=
    (h.looks (fun b ↦ b.pages.routeWrite b.store address value) fun _ ↦ rfl).symm
  simp only [Board.write, hroute]
  split
  · next store _ =>
    exact h.changes (fun b ↦ { b with store := store, dataBus := value, afterRead := false })
      (fun _ ↦ rfl) fun _ ↦ rfl
  · next id store _ =>
    have hstored : Board.Alike { b with store := store } { c with store := store } :=
      h.changes (fun b ↦ { b with store := store }) (fun _ ↦ rfl) fun _ ↦ rfl
    exact (hstored.writeDevice id address value).changes
      (fun b ↦ { b with dataBus := value, afterRead := false }) (fun _ ↦ rfl) fun _ ↦ rfl

end Alike

/-- The processor cannot tell such boards apart, and they stay that way. -/
theorem alike_simulation : Bus.Simulation Alike where
  latch h := h.looks Board.dataBus fun _ ↦ rfl
  stopRequested h := h.looks Board.stop fun _ ↦ rfl
  read address h := h.read address
  write address value h := h.write address value
  elapse cycles h := h.elapse cycles

/-- What two boards have in common whose pasts are otherwise their own. -/
structure SharesSetup (b c : Board) : Prop where
  cartridge : b.cartridge.map (fun cartridge ↦ (cartridge.scheme, cartridge.rom)) =
    c.cartridge.map (fun cartridge ↦ (cartridge.scheme, cartridge.rom))
  ram : b.ram = c.ram
  random : b.riot.random = c.riot.random
  ports : b.ports = c.ports
  switches : b.switches = c.switches

/-- The essence of a board that has been reset, by what it is made of. -/
def afterReset (settings : Tia.Settings) (random : Random.Generator) (cartridge : Option Cartridge)
    (store : Store) (ports : Ports) (switches : ConsoleSwitches) (dataBus : UInt8) : Board where
  pages := wiring cartridge
  store := store
  tia := ({ settings := settings } : Tia).powerOn 0
  riot := (Riot.reset { random := random }).1
  cartridge := cartridge
  dataBus := dataBus
  ports := ports
  switches := switches

theorem reset_sound (b : Board) : b.reset.sound = b.sound.map fun _ ↦ {} := by
  obtain ⟨pages, store, tia, riot, cartridge, -, -, -, -, -, -, sound, -⟩ := b
  cases cartridge <;> cases sound <;> rfl

theorem reset_essence {b : Board} (h : b.Wired) :
    b.reset.essence = afterReset b.tia.settings b.riot.random (b.cartridge.map rewound) b.store
      b.ports b.switches b.dataBus := by
  have hreset : b.reset.essence =
      { afterReset b.tia.settings b.riot.random b.reset.cartridge b.store b.ports b.switches
          b.dataBus with
        pages := b.reset.pages } := by
    unfold reset
    dsimp only
    split <;> rfl
  rw [hreset, h.reset.pages, reset_cartridge]
  rfl

theorem SharesSetup.rewound_eq {b c : Board} (h : SharesSetup b c) (hb : b.Wired) (hc : c.Wired) :
    b.cartridge.map rewound = c.cartridge.map rewound := by
  have hshared := h.cartridge
  rcases hfirst : b.cartridge with _ | first <;> rcases hsecond : c.cartridge with _ | second
  · rfl
  · rw [hfirst, hsecond] at hshared
    exact absurd hshared nofun
  · rw [hfirst, hsecond] at hshared
    exact absurd hshared nofun
  · rw [hfirst, hsecond] at hshared
    obtain ⟨hscheme, hrom⟩ := Prod.mk.inj (Option.some.inj hshared)
    have hslot : first.slot = second.slot := (hb.slot _ hfirst).trans (hc.slot _ hsecond).symm
    rw [Option.map_some, Option.map_some, rewound, rewound, hscheme, hrom, hslot]

/-- After a reset boards with the same setup differ in the byte on the data bus only. -/
theorem reset_alike {b c : Board} (hb : b.Wired) (hc : c.Wired) (h : SharesSetup b c)
    (hsettings : b.tia.settings = c.tia.settings) :
    b.reset.Alike { c.reset with dataBus := b.dataBus } := by
  have hrewound := h.rewound_eq hb hc
  have himage (cartridge : Option Cartridge) : image cartridge = image (cartridge.map rewound) := by
    cases cartridge <;> rfl
  have hstore : b.store = c.store := by
    rw [hb.ram, hc.ram, himage b.cartridge, himage c.cartridge, h.ram, hrewound]
  constructor
  · have hsecond : { c.reset with dataBus := b.dataBus }.essence =
        { c.reset.essence with dataBus := b.dataBus } := rfl
    rw [hsecond, reset_essence hb, reset_essence hc, hsettings, h.random, hrewound, hstore, h.ports,
      h.switches]
    rfl
  · intro log other hfirst hsecond
    rw [reset_sound] at hfirst
    have hother : c.reset.sound = some other := hsecond
    rw [reset_sound] at hother
    obtain ⟨-, -, rfl⟩ := Option.map_eq_some_iff.mp hfirst
    obtain ⟨-, -, rfl⟩ := Option.map_eq_some_iff.mp hother
    rfl

/-- Reads of the window are answered by memory, by the cartridge or by nobody. -/
theorem Wired.eq_cartridgeId {b : Board} (h : b.Wired) {address : UInt16}
    (hwindow : address &&& 0x1000 ≠ 0) {id : DeviceId}
    (hdevice : b.pages.routeRead b.store address = .device id) : id = cartridgeId := by
  have hpage : 64 ≤ (PageTable.pageOf address : Nat) := Cartridge.le_pageOf hwindow
  rw [PageTable.routeRead, h.pages] at hdevice
  rcases hslot : b.cartridge with _ | cartridge
  · have hbinding : (wiring none).binding (PageTable.pageOf address) = {} :=
      (binding_basePages _).1 hpage
    rw [hslot, hbinding] at hdevice
    cases hdevice
  · rw [hslot, binding_wiring_of_le cartridge hpage, Cartridge.windowBinding] at hdevice
    split_ifs at hdevice
    · exact (Routed.device.inj hdevice).symm
    · cases hdevice

/-- Whatever was on the data bus is gone once the window has been read. -/
theorem Wired.read_window {b : Board} (h : b.Wired) {address : UInt16}
    (hwindow : address &&& 0x1000 ≠ 0) (byte : UInt8) :
    { b with dataBus := byte }.read address = b.read address := by
  simp only [Board.read]
  split
  · rfl
  · next id hid =>
    have hslot : id = cartridgeId ∧ address &&& 0x1000 ≠ 0 := ⟨h.eq_cartridgeId hwindow hid, hwindow⟩
    simp only [Board.readDevice, if_pos hslot, Board.readCartridge]
    split <;> rfl

namespace Alike

variable {b c : Board}

theorem clearStop (h : b.Alike c) : Board.Alike { b with stop := false } { c with stop := false } :=
  h.changes (fun b ↦ { b with stop := false }) (fun _ ↦ rfl) fun _ ↦ rfl

theorem beginFrame (h : b.Alike c) (carry : Int) :
    (b.resetCycles.beginFrame carry).Alike (c.resetCycles.beginFrame carry) := by
  obtain ⟨hc, hsound⟩ := h.eq_posing
  rw [hc]
  exact ⟨rfl, hsound.map _⟩

theorem finishFrame (h : b.Alike c) :
    Board.Alike { b with tia := (b.tia.finishFrame b.cycles).2 }
      { c with tia := (c.tia.finishFrame c.cycles).2 } := by
  obtain ⟨hc, hsound⟩ := h.eq_posing
  rw [hc]
  rcases hdrawing : b.tia.frame.drawing with _ | _
  · have hother : (b.posing c.tia.frame.completed c.sound c.journal).tia.frame.drawing = false := hdrawing
    simp only [Tia.finishFrame, hdrawing, hother]
    exact ⟨rfl, hsound⟩
  · have hother : (b.posing c.tia.frame.completed c.sound c.journal).tia.frame.drawing = true := hdrawing
    simp only [Tia.finishFrame, hdrawing, hother]
    exact ⟨rfl, hsound⟩

theorem setSwitch (h : b.Alike c) (switch : ConsoleSwitch) (down : Bool) :
    (b.setSwitch switch down).Alike (c.setSwitch switch down) := by
  obtain ⟨hc, hsound⟩ := h.eq_posing
  rw [hc]
  exact ⟨rfl, hsound⟩

theorem plug (h : b.Alike c) (jack : Jack) (change : Controller → Controller) :
    (b.plug jack change).Alike (c.plug jack change) := by
  obtain ⟨hc, hsound⟩ := h.eq_posing
  rw [hc]
  exact ⟨rfl, hsound⟩

end Alike

end Board

namespace Machine

/-! ## Machines that behave alike -/

/-- Two machines that nobody can tell apart, except by what they have counted and reported. -/
structure Alike (m n : Machine) : Prop where
  core : m.core.Alike Board.Alike n.core
  config : m.config = n.config
  television : m.television = n.television
  yStart : m.yStart = n.yStart
  height : m.height = n.height

namespace Alike

variable {m n : Machine}

theorem board (h : m.Alike n) : m.board.Alike n.board :=
  h.core.bus

theorem mapBoard (h : m.Alike n) (change other : Board → Board)
    (hchange : (change m.board).Alike (other n.board)) : (m.mapBoard change).Alike (n.mapBoard other) :=
  ⟨⟨h.core.registers, h.core.surcharge, h.core.signalled, hchange⟩, h.config, h.television, h.yStart,
    h.height⟩

theorem note (h : m.Alike n) (event other : Event) : (m.note event).Alike (n.note other) :=
  h.mapBoard _ _ (h.board.note event other)

theorem drawing_eq (h : m.Alike n) : m.board.tia.frame.drawing = n.board.tia.frame.drawing :=
  h.board.looks (fun b ↦ b.tia.frame.drawing) fun _ ↦ rfl

theorem openFrame (h : m.Alike n) : m.openFrame.Alike n.openFrame := by
  have hcarry : m.board.tia.lineClock m.board.cycles = n.board.tia.lineClock n.board.cycles :=
    h.board.looks (fun b ↦ b.tia.lineClock b.cycles) fun _ ↦ rfl
  unfold Machine.openFrame
  rw [h.drawing_eq]
  split
  · exact h
  · dsimp only
    rw [hcarry]
    exact ⟨⟨h.core.registers, h.core.surcharge, h.core.signalled, h.board.beginFrame _⟩, h.config,
      h.television, h.yStart, h.height⟩

theorem reportOverrun (h : m.Alike n) : m.reportOverrun.Alike n.reportOverrun := by
  unfold Machine.reportOverrun
  split <;> split <;>
    exact ⟨⟨h.core.registers, h.core.surcharge, h.core.signalled, h.board.essence_eq, h.board.sound⟩,
      h.config, h.television, h.yStart, h.height⟩

theorem closeFrame (h : m.Alike n) (left : Nat) :
    (m.closeFrame left).1 = (n.closeFrame left).1 ∧ (m.closeFrame left).2.Alike (n.closeFrame left).2 := by
  have hfinished : Alike
      (m.mapBoard fun b ↦ { b with tia := (b.tia.finishFrame m.board.cycles).2 })
      (n.mapBoard fun b ↦ { b with tia := (b.tia.finishFrame n.board.cycles).2 }) :=
    h.mapBoard _ _ h.board.finishFrame
  have hoverrun := hfinished.board.looks (fun b ↦ b.tia.frame.overrun) fun _ ↦ rfl
  unfold Machine.closeFrame
  dsimp only
  rw [hoverrun]
  split
  · exact ⟨rfl, hfinished.reportOverrun⟩
  · exact ⟨rfl, hfinished⟩

end Alike

theorem runSlices_same {p q : Processor Board} (h : p.Alike Board.Alike q) (budget : Nat) :
    Processor.Alike.Same Board.Alike (runSlices p budget) (runSlices q budget) := by
  induction budget generalizing p q with
  | zero => exact ⟨rfl, h⟩
  | succ budget ih =>
    have hcleared : Processor.Alike Board.Alike { p with bus := { p.bus with stop := false } }
        { q with bus := { q.bus with stop := false } } :=
      ⟨h.registers, h.surcharge, h.signalled, h.bus.clearStop⟩
    obtain ⟨hresult, hnext⟩ := hcleared.runFrom Board.alike_simulation 0 sliceInstructions
    change (runSlice p).1 = (runSlice q).1 at hresult
    change (runSlice p).2.Alike Board.Alike (runSlice q).2 at hnext
    rcases hp : runSlice p with ⟨result, next⟩
    rcases hq : runSlice q with ⟨other, follower⟩
    rw [hp, hq] at hresult hnext
    cases hresult
    have hdrawing : next.bus.tia.frame.drawing = follower.bus.tia.frame.drawing :=
      hnext.bus.looks (fun b ↦ b.tia.frame.drawing) fun _ ↦ rfl
    cases result with
    | error fault =>
      simp only [runSlices, hp, hq]
      exact ⟨rfl, hnext⟩
    | ok count =>
      simp only [runSlices, hp, hq, hdrawing]
      split
      · exact ih hnext
      · exact ⟨rfl, hnext⟩

theorem Alike.processFrame {m n : Machine} (h : m.Alike n) :
    m.processFrame.1 = n.processFrame.1 ∧ m.processFrame.2.Alike n.processFrame.2 := by
  have hopen := h.openFrame
  obtain ⟨hresult, hnext⟩ := runSlices_same hopen.core sliceBudget
  unfold Machine.processFrame
  dsimp only
  rcases hp : runSlices m.openFrame.core sliceBudget with ⟨result, next⟩
  rcases hq : runSlices n.openFrame.core sliceBudget with ⟨other, follower⟩
  rw [hp, hq] at hresult hnext
  cases hresult
  have hrun : Alike { m.openFrame with core := next } { n.openFrame with core := follower } :=
    ⟨hnext, hopen.config, hopen.television, hopen.yStart, hopen.height⟩
  cases result with
  | error fault => exact ⟨rfl, hrun⟩
  | ok left =>
    obtain ⟨hstatus, hclosed⟩ := hrun.closeFrame left
    exact ⟨congrArg Except.ok hstatus, hclosed⟩

/-- What can be done to a machine that is switched on. -/
inductive Action where
  | frame
  | setSwitch (switch : ConsoleSwitch) (down : Bool)
  | plug (jack : Jack) (change : Controller → Controller)

/-- Does something to a machine; a frame ends somehow. -/
def act (m : Machine) : Action → Option (Except MachineError FrameStatus) × Machine
  | .frame =>
    let (result, m) := m.processFrame
    (some result, m)
  | .setSwitch switch down => (none, m.mapBoard fun board ↦ board.setSwitch switch down)
  | .plug jack change => (none, m.mapBoard fun board ↦ board.plug jack change)

/-- Does one thing after another; the results are those of the frames. -/
def play (m : Machine) : List Action → List (Except MachineError FrameStatus) × Machine
  | [] => ([], m)
  | action :: rest =>
    let (result, m) := m.act action
    let (results, m) := m.play rest
    (result.toList ++ results, m)

theorem Alike.act {m n : Machine} (h : m.Alike n) (action : Action) :
    (m.act action).1 = (n.act action).1 ∧ (m.act action).2.Alike (n.act action).2 := by
  cases action with
  | frame =>
    obtain ⟨hresult, hnext⟩ := h.processFrame
    exact ⟨congrArg some hresult, hnext⟩
  | setSwitch switch down =>
    let move (board : Board) : Board := board.setSwitch switch down
    exact ⟨rfl, h.mapBoard move move (h.board.setSwitch switch down)⟩
  | plug jack change =>
    let move (board : Board) : Board := board.plug jack change
    exact ⟨rfl, h.mapBoard move move (h.board.plug jack change)⟩

theorem Alike.play {m n : Machine} (h : m.Alike n) (actions : List Action) :
    (m.play actions).1 = (n.play actions).1 ∧ (m.play actions).2.Alike (n.play actions).2 := by
  induction actions generalizing m n with
  | nil => exact ⟨rfl, h⟩
  | cons action rest ih =>
    obtain ⟨hfirst, hnext⟩ := h.act action
    obtain ⟨hrest, hlast⟩ := ih hnext
    exact ⟨congr_arg₂ (fun result results ↦ result.toList ++ results) hfirst hrest, hlast⟩

/-- A reset reads the window first, so the byte on the data bus does not matter. -/
theorem reset_dataBus (p : Processor Board) (h : p.bus.Wired) (byte : UInt8) :
    { p with bus := { p.bus with dataBus := byte } }.reset = p.reset := by
  have hjump {q r : Processor Board} (hpeek : q.peek 0xFFFC = r.peek 0xFFFC) :
      q.jumpThrough 0xFFFC = r.jumpThrough 0xFFFC := by
    rw [Processor.jumpThrough, Processor.jumpThrough, hpeek]
  have hfetch : ({ p.bus with dataBus := byte }.elapse 1).read 0xFFFC =
      (p.bus.elapse 1).read 0xFFFC :=
    Board.Wired.read_window (Board.keeps_wired.elapse 1 h) (by decide) byte
  have hcleared : ({ p with
        registers := {}
        signalled := 0
        surcharge := 0
        bus := { p.bus with dataBus := byte } } : Processor Board).peek 0xFFFC =
      ({ p with registers := {}, signalled := 0, surcharge := 0 } : Processor Board).peek 0xFFFC :=
    congrArg (fun bus : Board ↦
      ({ p with registers := {}, signalled := 1, surcharge := 0, bus := bus } : Processor Board)) hfetch
  exact congrArg (fun p : Processor Board ↦ { p with signalled := 0 }) (hjump hcleared)

theorem reset_processor {p q : Processor Board} (hq : q.bus.Wired) {byte : UInt8}
    (h : p.bus.Alike { q.bus with dataBus := byte }) : p.reset.Alike Board.Alike q.reset := by
  have hcleared : Processor.Alike Board.Alike
      ({ p with registers := {}, signalled := 0, surcharge := 0 } : Processor Board)
      ({ q with
        registers := {}
        signalled := 0
        surcharge := 0
        bus := { q.bus with dataBus := byte } } : Processor Board) :=
    ⟨rfl, rfl, rfl, h⟩
  have hjump := hcleared.jumpThrough Board.alike_simulation 0xFFFC
  rw [← reset_dataBus q hq byte]
  exact ⟨hjump.registers, hjump.surcharge, rfl, hjump.bus⟩

/-- What two machines have in common whose pasts are otherwise their own. -/
structure SharesSetup (m n : Machine) : Prop where
  config : m.config = n.config
  television : m.television = n.television
  yStart : m.yStart = n.yStart
  height : m.height = n.height
  board : Board.SharesSetup m.board n.board

theorem KeepsSetup.sharesSetup {m n : Machine} (h : m.KeepsSetup n) : SharesSetup m n where
  config := h.config.symm
  television := h.television.symm
  yStart := h.yStart.symm
  height := h.height.symm
  board := by
    refine ⟨?_, ?_, h.board.random.symm, h.board.ports.symm, h.board.switches.symm⟩
    · rw [h.board.cartridge]
    · rw [Board.ram, Board.ram, h.board.store]

/-- Machines with the same setup are alike after a reset. -/
theorem reset_alike {m n : Machine} (hm : Reachable m) (hn : Reachable n) (h : SharesSetup m n) :
    m.reset.Alike n.reset := by
  have hsettings : m.board.tia.settings = n.board.tia.settings := by
    rw [hm.kept.settings_eq, hn.kept.settings_eq, chipSettings, chipSettings, h.config, h.television,
      h.yStart, h.height]
  have hboard := Board.reset_alike hm.kept.wired hn.kept.wired h.board hsettings
  have hcore : { m.core with bus := m.board.reset }.reset.Alike Board.Alike
      { n.core with bus := n.board.reset }.reset :=
    reset_processor hn.kept.wired.reset hboard
  have hmachine : Alike { m with core := { m.core with bus := m.board.reset }.reset }
      { n with core := { n.core with bus := n.board.reset }.reset } :=
    ⟨hcore, h.config, h.television, h.yStart, h.height⟩
  exact hmachine.note _ _

/-- The machine without what it has counted and reported, and without the opcode and the address that every
instruction sets before it uses them. -/
def essence (m : Machine) : Machine :=
  { m with
    core := { m.core with bus := m.board.essence, opcode := 0, address := 0, retired := 0 }
    elapsedCycles := 0
    overrunReported := false }

theorem Alike.essence_eq {m n : Machine} (h : m.Alike n) : m.essence = n.essence := by
  simp only [essence, h.core.registers, h.core.surcharge, h.core.signalled, h.board.essence_eq,
    h.config, h.television, h.yStart, h.height]

/-- A reset makes a machine forget its past. -/
theorem reset_forgets {m n : Machine} (hm : Reachable m) (hn : Reachable n) (h : SharesSetup m n)
    (actions : List Action) :
    let first := m.reset.play actions
    let second := n.reset.play actions
    first.1 = second.1 ∧ first.2.essence = second.2.essence ∧
      SoundsAgree first.2.board.sound second.2.board.sound := by
  obtain ⟨hresults, hlast⟩ := (reset_alike hm hn h).play actions
  exact ⟨hresults, hlast.essence_eq, hlast.board.sound⟩

/-- One machine is between two frames, the other has been running for 250000 instructions and is in the
middle of a frame. -/
theorem reset_forgets_of_selfJump :
    let m := running selfJump {} (Riot.new 0) {}
    let n := (running selfJump {} (Riot.new 0) {}).processFrame.2
    let actions : List Action := [.setSwitch .reset true, .frame, .plug .left id, .frame]
    let first := m.reset.play actions
    let second := n.reset.play actions
    m.board.tia.frame.drawing = false ∧ n.board.tia.frame.drawing = true ∧
      first.1 = second.1 ∧ first.2.essence = second.2.essence ∧
        SoundsAgree first.2.board.sound second.2.board.sound := by
  have hreachable := running_reachable selfJump {} (Riot.new 0) {}
  obtain ⟨-, -, hbetween⟩ := running_shows selfJump {} (Riot.new 0) {}
  obtain ⟨-, -, hdrawing, hkept⟩ := processFrame_of_spins (running_spins {} (Riot.new 0) {})
  exact ⟨hbetween, hdrawing, reset_forgets hreachable hreachable.processFrame hkept.sharesSetup _⟩

end Machine

end Vcs
