import Vcs.Console.Detection
import Vcs.Proofs.Console.Wiring
import Vcs.Proofs.Processor.Replay
import Vcs.Proofs.Tia.Frame

/-!
# Reachable Machines

The machines that can come about, from a console that is switched off, by anything that can be done to one.
Whatever that is, the board is wired to the cartridge, the video chip has the settings of the machine's format
and placement, a frame in progress has not been cut off, and it has begun no later than the cycle counter.
-/

namespace Vcs

namespace Board

/-- From one board to the next the frame is cut off at the ceiling if `past`, and completed if `released`. -/
structure FrameStep (b : Board) (past released : Bool) (after : Board) : Prop where
  settings : after.tia.settings = b.tia.settings
  frameStart : after.tia.beam.frameStart = b.tia.beam.frameStart
  drawing : after.tia.frame.drawing = (b.tia.frame.drawing && !past && !released)
  overrun : after.tia.frame.overrun = (b.tia.frame.overrun || past)
  stop : after.stop = (b.stop || (past || released))

theorem FrameStep.of_eq {b after : Board} (htia : after.tia = b.tia) (hstop : after.stop = b.stop) :
    b.FrameStep false false after := by
  constructor <;> simp [htia, hstop]

theorem elapse_frameStep (b : Board) (cycles : Nat) : b.FrameStep false false (b.elapse cycles) :=
  .of_eq rfl rfl

theorem read_frameStep (b : Board) (address : UInt16) :
    b.FrameStep false false (b.read address) := by
  obtain ⟨htia | htia, hstop, -⟩ := b.read_keeps address
  · exact .of_eq htia hstop
  · obtain ⟨hsettings, hstart⟩ := b.tia.catchUp_keeps (Tia.clockOf b.cycles)
    have hframe := b.tia.catchUp_frame (Tia.clockOf b.cycles)
    constructor <;> simp [htia, hstop, hsettings, hstart, hframe]

theorem write_frameStep_of_reaches {b : Board} {address : UInt16} (h : b.ReachesVideo address)
    (value : UInt8) :
    b.FrameStep (b.tia.isPast b.cycles) (b.tia.releasesSync b.cycles address value)
      (b.write address value) := by
  obtain ⟨htia, hstop, -⟩ := write_of_reachesVideo h value
  have hends := b.tia.write_ends b.cycles b.afterRead address value
  constructor
  · rw [htia, hends.settings]
  · rw [htia, hends.frameStart]
  · rw [htia, hends.drawing]
  · rw [htia, hends.overrun]
  · rw [hstop, hends.stop]

theorem write_frameStep_of_not_reaches {b : Board} {address : UInt16}
    (h : ¬ b.ReachesVideo address) (value : UInt8) :
    b.FrameStep false false (b.write address value) := by
  obtain ⟨htia, hstop, -⟩ := write_of_not_reachesVideo h value
  exact .of_eq htia hstop

/-- Whatever the processor does is a step of the frame.  If sync is released, the ceiling has been enforced. -/
theorem write_frameStep (b : Board) (address : UInt16) (value : UInt8) :
    ∃ past released, b.FrameStep past released (b.write address value) ∧
      (past = true → b.tia.isPast b.cycles = true) ∧
      (released = true → past = b.tia.isPast b.cycles ∧ Tia.names address .vsync = true) := by
  by_cases h : b.ReachesVideo address
  · refine ⟨_, _, write_frameStep_of_reaches h value, id, ?_⟩
    intro hreleased
    simp only [Tia.releasesSync, Bool.and_eq_true] at hreleased
    exact ⟨rfl, hreleased.1.1⟩
  · refine ⟨false, false, write_frameStep_of_not_reaches h value, ?_, ?_⟩
    · exact fun hpast ↦ absurd hpast Bool.false_ne_true
    · exact fun hreleased ↦ absurd hreleased Bool.false_ne_true

/-- What every step of a frame preserves outlasts whatever the processor does. -/
theorem keeps_of_frameStep {I : Board → Prop}
    (h : ∀ b past released after, b.FrameStep past released after → I b → I after) :
    Bus.Keeps I where
  read address hb := h _ _ _ _ (read_frameStep _ address) hb
  write address value hb := by
    obtain ⟨past, released, hstep, -⟩ := write_frameStep _ address value
    exact h _ _ _ _ hstep hb
  elapse cycles hb := h _ _ _ _ (elapse_frameStep _ cycles) hb

/-- A frame in progress has not been cut off. -/
def FrameIntact (b : Board) : Prop :=
  b.tia.frame.drawing = true → b.tia.frame.overrun = false

theorem keeps_frameIntact : Bus.Keeps FrameIntact := by
  apply keeps_of_frameStep
  intro b past released after hstep hintact hdrawing
  rw [hstep.drawing] at hdrawing
  simp only [Bool.and_eq_true, Bool.not_eq_true'] at hdrawing
  rw [hstep.overrun, hintact hdrawing.1.1, hdrawing.1.2]
  rfl

/-- What a machine with some settings keeps its board in. -/
structure Kept (settings : Tia.Settings) (b : Board) : Prop where
  wired : b.Wired
  settings_eq : b.tia.settings = settings.clamped
  intact : b.FrameIntact
  frameStart_le : b.tia.beam.frameStart ≤ 0

theorem keeps_kept (settings : Tia.Settings) : Bus.Keeps (Kept settings) := by
  have hframe : Bus.Keeps fun b : Board ↦
      b.tia.settings = settings.clamped ∧ b.tia.beam.frameStart ≤ 0 := by
    apply keeps_of_frameStep
    intro b past released after hstep hkept
    rwa [hstep.settings, hstep.frameStart]
  constructor
  · intro b address h
    obtain ⟨hsettings, hstart⟩ := hframe.read address ⟨h.settings_eq, h.frameStart_le⟩
    exact ⟨h.wired.read address, hsettings, keeps_frameIntact.read address h.intact, hstart⟩
  · intro b address value h
    obtain ⟨hsettings, hstart⟩ := hframe.write address value ⟨h.settings_eq, h.frameStart_le⟩
    exact ⟨h.wired.write address value, hsettings, keeps_frameIntact.write address value h.intact,
      hstart⟩
  · intro b cycles h
    exact ⟨keeps_wired.elapse cycles h.wired, h.settings_eq, h.intact, h.frameStart_le⟩

theorem Kept.of_eq {settings : Tia.Settings} {b after : Board} (h : b.Kept settings)
    (hwired : after.Wired) (htia : after.tia = b.tia) : after.Kept settings := by
  obtain ⟨-, hsettings, hintact, hstart⟩ := h
  refine ⟨hwired, ?_, ?_, ?_⟩
  · rwa [htia]
  · rwa [FrameIntact, htia]
  · rwa [htia]

theorem Kept.note {settings : Tia.Settings} {b : Board} (h : b.Kept settings) (event : Event) :
    (b.note event).Kept settings :=
  h.of_eq (h.wired.of_eq rfl rfl rfl) rfl

theorem insert_kept {settings : Tia.Settings} {b : Board} (h : b.Kept settings)
    (cartridge : Cartridge) : (b.insert cartridge).2.Kept settings :=
  h.of_eq (insert_wired h.wired cartridge) (b.insert_tia cartridge)

/-- The cartridge in the bank of power-on. -/
def rewound (cartridge : Cartridge) : Cartridge :=
  { cartridge with bank := cartridge.scheme.resetBank }

theorem reset_cartridge (b : Board) : b.reset.cartridge = b.cartridge.map rewound := by
  obtain ⟨pages, store, tia, riot, cartridge, -, -, -, -, -, -, -, -⟩ := b
  cases cartridge <;> rfl

theorem reset_tia (b : Board) : b.reset.tia = (b.tia.rebase b.cycles).powerOn 0 := by
  unfold Board.reset
  dsimp only
  split <;> rfl

theorem reset_cycles (b : Board) : b.reset.cycles = 0 := by
  unfold Board.reset
  dsimp only
  split <;> rfl

theorem reset_kept {settings : Tia.Settings} {b : Board} (hwired : b.Wired)
    (hsettings : b.tia.settings = settings.clamped) : b.reset.Kept settings := by
  refine ⟨hwired.reset, ?_, ?_, ?_⟩
  · rw [reset_tia]
    exact hsettings
  · rw [FrameIntact, reset_tia]
    exact nofun
  · rw [reset_tia]
    exact Int.le_refl 0

end Board

theorem Cartridge.exists_withScheme {image : ByteArray} {cartridge : Cartridge}
    (h : Cartridge.ofImage image = .ok cartridge) :
    ∃ scheme, Cartridge.withScheme image scheme = .ok cartridge := by
  rcases hdetect : BankScheme.detect image with _ | scheme
  · simp only [Cartridge.ofImage, hdetect] at h
    exact absurd h nofun
  · simp only [Cartridge.ofImage, hdetect] at h
    exact ⟨scheme, h⟩

namespace Machine

/-! ## Machines -/

/-- Machines that can come about, whatever memory and timer hold at power-on. -/
inductive Reachable : Machine → Prop where
  | off (config : Config) (power : Riot.PowerOn) (journal : Journal) :
      Reachable (.off config power journal)
  /-- A cartridge is put into the slot. -/
  | insert {m : Machine} {image : ByteArray} {scheme : BankScheme} {cartridge : Cartridge}
      (h : Reachable m) (hcartridge : Cartridge.withScheme image scheme = .ok cartridge) :
      Reachable (m.mapBoard fun board ↦ (board.insert cartridge).2)
  /-- The machine adopts a format and a placement, and starts over. -/
  | adopt {m : Machine} (h : Reachable m) (television : Television) (yStart height : UInt16) :
      Reachable { m with television := television, yStart := yStart, height := height }.applySettings
  | reset {m : Machine} (h : Reachable m) : Reachable m.reset
  | processFrame {m : Machine} (h : Reachable m) : Reachable m.processFrame.2
  | setSwitch {m : Machine} (h : Reachable m) (switch : ConsoleSwitch) (down : Bool) :
      Reachable (m.mapBoard fun board ↦ board.setSwitch switch down)
  | plug {m : Machine} (h : Reachable m) (jack : Jack) (change : Controller → Controller) :
      Reachable (m.mapBoard fun board ↦ board.plug jack change)
  /-- Somebody begins or ceases to listen, or takes what has been written down. -/
  | listen {m : Machine} (h : Reachable m) (journal : Journal) (sound : Option SoundLog) :
      Reachable (m.mapBoard fun board ↦ { board with journal := journal, sound := sound })
  | restartClock {m : Machine} (h : Reachable m) : Reachable { m with elapsedCycles := 0 }

namespace Reachable

theorem switchedOn (config : Config) (power : Riot.PowerOn) (journal : Journal) :
    Reachable (.switchedOn config power journal) :=
  (off config power journal).reset

theorem note {m : Machine} (h : Reachable m) (event : Event) : Reachable (m.note event) :=
  h.listen (m.board.journal.record event) m.board.sound

end Reachable

/-- A session that keeps an invariant, whether it fails or not, and that returns values of some kind only. -/
def Session.Ensures {α : Type} (I : Machine → Prop) (Q : α → Prop) (session : Session α) : Prop :=
  ∀ m : Machine, I m → I (session.run m).2 ∧ ∀ value, (session.run m).1 = .ok value → Q value

namespace Session.Ensures

variable {α β : Type} {I : Machine → Prop} {Q : α → Prop} {R : β → Prop}

theorem pure {value : α} (h : Q value) : Session.Ensures I Q (Pure.pure value : Session α) :=
  fun _ hm ↦ ⟨hm, fun _ heq ↦ Except.ok.inj heq ▸ h⟩

theorem throw (cause : MachineError) :
    Session.Ensures I Q (MonadExcept.throw cause : Session α) :=
  fun _ hm ↦ ⟨hm, fun _ heq ↦ absurd heq (by exact nofun)⟩

theorem get : Session.Ensures I I (getThe Machine : Session Machine) :=
  fun _ hm ↦ ⟨hm, fun _ heq ↦ Except.ok.inj heq ▸ hm⟩

theorem modify {change : Machine → Machine} (h : ∀ m, I m → I (change m)) :
    Session.Ensures I (fun _ ↦ True) (modifyThe Machine change : Session PUnit) :=
  fun m hm ↦ ⟨h m hm, fun _ _ ↦ trivial⟩

theorem bind {first : Session α} {next : α → Session β} (hfirst : Session.Ensures I Q first)
    (hnext : ∀ value, Q value → Session.Ensures I R (next value)) :
    Session.Ensures I R (first >>= next) := by
  intro m hm
  obtain ⟨hmiddle, hvalue⟩ := hfirst m hm
  have hrun : (first >>= next).run m =
      ExceptT.bindCont next (first.run m).1 (first.run m).2 := rfl
  rw [hrun]
  rcases hresult : first.run m with ⟨cause | value, middle⟩
  · rw [hresult] at hmiddle
    exact ⟨hmiddle, fun _ heq ↦ absurd heq (by exact nofun)⟩
  · rw [hresult] at hmiddle hvalue
    exact hnext value (hvalue value rfl) middle hmiddle

end Session.Ensures

/-- What happens to a machine when a frame is run, when it is reset and while an image is inserted keeps an
invariant.  Whether television standard and placement are adopted depends on an earlier machine of the session. -/
structure Outlasts (I : Machine → Prop) : Prop where
  note : ∀ {m : Machine} (event : Event), I m → I (m.note event)
  reset : ∀ {m : Machine}, I m → I m.reset
  processFrame : ∀ {m : Machine}, I m → I m.processFrame.2
  insert : ∀ {m : Machine} {image : ByteArray} {scheme : BankScheme} {cartridge : Cartridge},
    Cartridge.withScheme image scheme = .ok cartridge → I m →
      I (m.mapBoard fun board ↦ (board.insert cartridge).2)
  adoptTelevision : ∀ {before m : Machine}, I before → before.config.television = none → I m →
    ∀ television : Television,
      I { m with
        television := television
        height := if m.config.height.isNone then television.defaultHeight else m.height
      }.applySettings
  adoptPlacement : ∀ {before m : Machine}, I before → before.config.height = none → I m →
    ∀ (television : Television) (span : Tia.PictureSpan),
      I { m with
        yStart := m.config.yStart.getD (placement television span).1
        height := (placement television span).2
      }.applySettings
  restartClock : ∀ {m : Machine}, I m → I { m with elapsedCycles := 0 }

namespace Outlasts

variable {I : Machine → Prop}

theorem runFrames (h : Outlasts I) {m : Machine} (hm : I m) (count : Nat) :
    I (m.runFrames count).2 := by
  induction count generalizing m with
  | zero => exact hm
  | succ count ih =>
    have hframe := h.processFrame hm
    rcases hresult : m.processFrame with ⟨_ | status, next⟩
    · simp only [Machine.runFrames, hresult]
      rwa [hresult] at hframe
    · simp only [Machine.runFrames, hresult]
      rw [hresult] at hframe
      exact ih hframe

theorem settle (h : Outlasts I) (count : Nat) :
    Session.Ensures I (fun _ ↦ True) (Machine.settle count) :=
  fun _ hm ↦ ⟨h.runFrames hm count, fun _ _ ↦ trivial⟩

theorem countLong (h : Outlasts I) (count : Nat) :
    Session.Ensures I (fun _ ↦ True) (Machine.countLong count) := by
  induction count with
  | zero => exact .pure trivial
  | succ count ih =>
    have hframe : Session.Ensures I (fun _ ↦ True) (fun m ↦ m.processFrame : Session FrameStatus) :=
      fun _ hm ↦ ⟨h.processFrame hm, fun _ _ ↦ trivial⟩
    exact hframe.bind fun _ _ ↦ .bind .get fun _ _ ↦ ih.bind fun _ _ ↦ .pure trivial

theorem detectTelevision (h : Outlasts I) :
    Session.Ensures I (fun _ ↦ True) Machine.detectTelevision :=
  (h.settle _).bind fun _ _ ↦ (h.countLong _).bind fun _ _ ↦
    .bind (.modify fun _ ↦ h.note _) fun _ _ ↦ .pure trivial

theorem detectPlacement (h : Outlasts I) :
    Session.Ensures I (fun found ↦ ∃ television span, found = placement television span)
      Machine.detectPlacement :=
  .bind (.modify fun _ ↦ h.reset) fun _ _ ↦ (h.settle _).bind fun _ _ ↦
    .bind .get fun m _ ↦ .pure ⟨m.television, m.board.tia.span, rfl⟩

theorem settleTelevision (h : Outlasts I) :
    Session.Ensures I (fun _ ↦ True) Machine.settleTelevision := by
  refine .bind .get fun before hbefore ↦ ?_
  split
  · next hopen =>
    refine h.detectTelevision.bind fun television _ ↦ .modify fun m hm ↦ ?_
    exact h.adoptTelevision hbefore (Option.isNone_iff_eq_none.mp hopen) (h.note _ hm) television
  · exact .pure trivial

theorem settlePlacement (h : Outlasts I) :
    Session.Ensures I (fun _ ↦ True) Machine.settlePlacement := by
  refine .bind .get fun before hbefore ↦ ?_
  split
  · next hopen =>
    refine h.detectPlacement.bind fun found hfound ↦ .modify fun m hm ↦ ?_
    obtain ⟨television, span, rfl⟩ := hfound
    exact h.adoptPlacement hbefore (Option.isNone_iff_eq_none.mp hopen) (h.note _ hm) television span
  · exact .pure trivial

theorem insertImage (h : Outlasts I) (image : ByteArray) :
    Session.Ensures I (fun _ ↦ True) (Machine.insertImage image) := by
  unfold Machine.insertImage
  split
  · exact .throw _
  · next cartridge hcartridge =>
    obtain ⟨scheme, hscheme⟩ := Cartridge.exists_withScheme hcartridge
    refine .bind (.modify ?_) fun _ _ ↦ h.settleTelevision.bind fun _ _ ↦
      h.settlePlacement.bind fun _ _ ↦ .modify ?_
    · exact fun m hm ↦ h.reset (h.insert hscheme (h.note _ hm))
    · exact fun m hm ↦ h.restartClock (h.reset hm)

/-- Inserting an image keeps the invariant, whether it fails or not. -/
theorem insertCartridge (h : Outlasts I) {m : Machine} (hm : I m) (image : ByteArray) :
    I (m.insertCartridge image).2 :=
  (h.insertImage image m hm).1

end Outlasts

theorem Reachable.outlasts : Outlasts Reachable where
  note event h := h.note event
  reset h := h.reset
  processFrame h := h.processFrame
  insert hcartridge h := h.insert hcartridge
  adoptTelevision _ _ h television := h.adopt television _ _
  adoptPlacement _ _ h _ _ := h.adopt _ _ _
  restartClock h := h.restartClock

/-- Inserting an image leads to a reachable machine, whether it fails or not. -/
theorem Reachable.insertCartridge {m : Machine} (h : Reachable m) (image : ByteArray) :
    Reachable (m.insertCartridge image).2 :=
  outlasts.insertCartridge h image

/-- What outlasts the processor and the clearing of a request to stop holds behind every slice. -/
theorem runSlices_keeps {I : Board → Prop} (h : Bus.Keeps I)
    (hclear : ∀ b, I b → I { b with stop := false }) {core : Processor Board} (hcore : I core.bus)
    (budget : Nat) : I (runSlices core budget).2.bus := by
  induction budget generalizing core with
  | zero => exact hcore
  | succ budget ih =>
    have hslice : I (runSlice core).2.bus :=
      Processor.runFrom_keeps h (hclear core.bus hcore) 0 sliceInstructions
    rcases hresult : runSlice core with ⟨_ | count, next⟩
    · simp only [runSlices, hresult]
      rwa [hresult] at hslice
    · rw [hresult] at hslice
      simp only [runSlices, hresult]
      split
      · exact ih hslice
      · exact hslice

section Kept

variable {m : Machine} {settings : Tia.Settings}

theorem openFrame_kept (h : m.board.Kept settings) : m.openFrame.board.Kept settings := by
  unfold openFrame
  split
  · exact h
  · refine ⟨h.wired.of_eq rfl rfl rfl, h.settings_eq, ?_, ?_⟩
    · exact fun _ ↦ rfl
    · exact Int.neg_nonpos_of_nonneg (Int.natCast_nonneg _)

theorem closeFrame_kept (h : m.board.Kept settings) (left : Nat) :
    (m.closeFrame left).2.board.Kept settings := by
  have hfinished : Board.Kept settings
      { m.board with tia := (m.board.tia.finishFrame m.board.cycles).2 } := by
    unfold Tia.finishFrame
    split
    · exact h
    · exact ⟨h.wired.of_eq rfl rfl rfl, h.settings_eq, h.intact, h.frameStart_le⟩
  unfold closeFrame
  dsimp only
  split
  · unfold reportOverrun
    split
    · exact hfinished
    · exact hfinished.of_eq (hfinished.wired.of_eq rfl rfl rfl) rfl
  · exact hfinished

theorem processFrame_kept (h : m.board.Kept settings) : m.processFrame.2.board.Kept settings := by
  have hrun : Board.Kept settings (runSlices m.openFrame.core sliceBudget).2.bus :=
    runSlices_keeps (Board.keeps_kept _)
      (fun b hb ↦ hb.of_eq (hb.wired.of_eq rfl rfl rfl) rfl) (openFrame_kept h) sliceBudget
  unfold processFrame
  dsimp only
  rcases hresult : runSlices m.openFrame.core sliceBudget with ⟨_ | left, core⟩
  · rwa [hresult] at hrun
  · rw [hresult] at hrun
    exact closeFrame_kept (m := { m.openFrame with core := core }) hrun left

/-- A reset of the machine is one of the board, and the processor fetches the address where it begins. -/
theorem reset_board (m : Machine) : ∃ event, m.reset.board =
    (replay m.board.reset { m.core with bus := m.board.reset }.resetTranscript).note event := by
  let switched : Processor Board := { m.core with bus := m.board.reset }
  refine ⟨.processorReset switched.reset.registers.pc, ?_⟩
  rw [← switched.reset_bus]
  rfl

theorem reset_kept (hwired : m.board.Wired) (hsettings : m.board.tia.settings = settings.clamped) :
    m.reset.board.Kept settings := by
  have hboard := (Board.keeps_kept settings).replay (Board.reset_kept hwired hsettings)
    { m.core with bus := m.board.reset }.resetTranscript
  obtain ⟨event, hreset⟩ := m.reset_board
  rw [hreset]
  exact hboard.note event

end Kept

/-- The settings of the video chip that go with a machine. -/
abbrev chipSettings (m : Machine) : Tia.Settings :=
  settings m.config m.television m.yStart m.height

@[simp]
theorem mapBoard_board (m : Machine) (change : Board → Board) :
    (m.mapBoard change).board = change m.board := rfl

@[simp]
theorem mapBoard_chipSettings (m : Machine) (change : Board → Board) :
    (m.mapBoard change).chipSettings = m.chipSettings := rfl

/-- The parts of a machine that a frame may change. -/
theorem processFrame_eq (m : Machine) : ∃ core elapsed reported, m.processFrame.2 =
    { m with core := core, elapsedCycles := elapsed, overrunReported := reported } := by
  have hopen : ∃ core elapsed, m.openFrame = { m with core := core, elapsedCycles := elapsed } := by
    unfold openFrame
    split <;> exact ⟨_, _, rfl⟩
  obtain ⟨opened, elapsed, hopen⟩ := hopen
  unfold processFrame
  dsimp only
  rw [hopen]
  split
  · exact ⟨_, _, _, rfl⟩
  · unfold closeFrame
    dsimp only
    split
    · unfold reportOverrun
      split <;> exact ⟨_, _, _, rfl⟩
    · exact ⟨_, _, _, rfl⟩

theorem processFrame_chipSettings (m : Machine) : m.processFrame.2.chipSettings = m.chipSettings := by
  obtain ⟨core, elapsed, reported, hframe⟩ := m.processFrame_eq
  rw [hframe]

theorem off_kept (config : Config) (power : Riot.PowerOn) (journal : Journal) :
    (Machine.off config power journal).board.Kept (Machine.off config power journal).chipSettings :=
  ⟨Board.new_wired _ _ _ _, rfl, nofun, Int.le_refl 0⟩

theorem Reachable.kept {m : Machine} (h : Reachable m) : m.board.Kept m.chipSettings := by
  induction h with
  | off config power journal => exact off_kept config power journal
  | insert h hcartridge ih =>
    rw [mapBoard_board, mapBoard_chipSettings]
    exact Board.insert_kept ih _
  | adopt h television yStart height ih =>
    exact reset_kept (ih.wired.of_eq rfl rfl rfl) rfl
  | reset h ih => exact reset_kept ih.wired ih.settings_eq
  | processFrame h ih =>
    rw [processFrame_chipSettings]
    exact processFrame_kept ih
  | setSwitch h switch down ih => exact ih.of_eq (ih.wired.of_eq rfl rfl rfl) rfl
  | plug h jack change ih => exact ih.of_eq (ih.wired.of_eq rfl rfl rfl) rfl
  | listen h journal sound ih => exact ih.of_eq (ih.wired.of_eq rfl rfl rfl) rfl
  | restartClock h ih => exact ih

end Machine

end Vcs
