import Vcs.Proofs.Console.SelfJump

/-!
# The Scanline Grid

Scanlines take 76 processor cycles each, and the frame pump may end a frame anywhere in a line: the cycle counter
restarts, and the next frame begins where in its line the beam has been.  Main statement: that keeps the beam on
one grid for ever.  However many frames go by, wherever they end and whatever the program waits for, the beam is
as far into its line as all cycles since the reset make it.  Waiting for the next line ends on the first cycle
at the start of a line; that is so because every frame begins on a whole processor cycle.
-/

namespace Vcs

/-- Processor cycles that a moment takes: those announced, or those for which a write holds the processor. -/
def Moment.cycles (moment : Moment Board) : Nat :=
  match moment.event with
  | .elapse cycles => cycles
  | .read .. | .write .. => moment.after.cycles - moment.bus.cycles

/-- Processor cycles of a run. -/
def spent (run : List (Moment Board)) : Nat :=
  (run.map Moment.cycles).sum

/-- The cycle counter reaches its limit at no moment of a run. -/
def Unsaturated (run : List (Moment Board)) : Prop :=
  ∀ moment ∈ run, moment.after.cycles < Board.cycleLimit

/-- The last access of a run. -/
def lastAccess? (run : List (Moment Board)) : Option BusEvent :=
  ((run.map Moment.event).filter BusEvent.isAccess).getLast?

theorem spent_append (first second : List (Moment Board)) :
    spent (first ++ second) = spent first + spent second := by
  simp [spent]

theorem spent_concat (run : List (Moment Board)) (moment : Moment Board) :
    spent (run ++ [moment]) = spent run + moment.cycles := by
  simp [spent]

theorem unsaturated_concat {run : List (Moment Board)} {moment : Moment Board} :
    Unsaturated (run ++ [moment]) ↔ Unsaturated run ∧ moment.after.cycles < Board.cycleLimit := by
  simp [Unsaturated, or_imp, forall_and]

theorem lastAccess?_concat (run : List (Moment Board)) (moment : Moment Board) :
    lastAccess? (run ++ [moment]) =
      if moment.event.isAccess then some moment.event else lastAccess? run := by
  simp only [lastAccess?, List.map_append, List.filter_append, List.map_cons, List.map_nil]
  split
  · next haccess => simp [haccess]
  · next hother => simp [hother]

namespace Moment

/-- While the counter is below its limit it counts every cycle. -/
theorem cycles_add {moment : Moment Board} (h : moment.after.cycles < Board.cycleLimit) :
    moment.bus.cycles + moment.cycles = moment.after.cycles := by
  obtain ⟨b, event⟩ := moment
  cases event with
  | elapse cycles =>
    have hsum : min (b.cycles + cycles) Board.cycleLimit < Board.cycleLimit := h
    have hfits : b.cycles + cycles ≤ Board.cycleLimit := by omega
    exact (Nat.min_eq_left hfits).symm
  | read address value =>
    have hsame : (b.read address).cycles = b.cycles := (b.read_keeps address).2.2
    change b.cycles + ((b.read address).cycles - b.cycles) = (b.read address).cycles
    omega
  | write address value =>
    have hlimit : (b.write address value).cycles < Board.cycleLimit := h
    have hlater : b.cycles ≤ (b.write address value).cycles := by
      by_cases hreaches : b.ReachesVideo address
      · rw [(Board.write_of_reachesVideo hreaches value).cycles] at hlimit ⊢
        omega
      · exact (Board.write_of_not_reachesVideo hreaches value).cycles.ge
    change b.cycles + ((b.write address value).cycles - b.cycles) = (b.write address value).cycles
    omega

/-- Events leave the place of the frame alone. -/
theorem after_frameStart (moment : Moment Board) :
    moment.after.tia.beam.frameStart = moment.bus.tia.beam.frameStart := by
  obtain ⟨b, event⟩ := moment
  cases event with
  | elapse cycles => rfl
  | read address value => exact (b.read_frameStep address).frameStart
  | write address value =>
    obtain ⟨past, released, hstep, -⟩ := b.write_frameStep address value
    exact hstep.frameStart

theorem after_wired {moment : Moment Board} (h : moment.bus.Wired) : moment.after.Wired :=
  Board.keeps_wired.apply h moment.event

theorem after_afterRead {moment : Moment Board} (h : moment.event.isAccess = true) :
    moment.after.afterRead = !moment.event.isWrite := by
  obtain ⟨b, event⟩ := moment
  cases event with
  | elapse cycles => exact absurd h nofun
  | read address value => exact b.read_afterRead address
  | write address value => exact b.write_afterRead address value

end Moment

/-- No write takes longer than the rest of a line. -/
theorem Board.write_cycles_lt (b : Board) (address : UInt16) (value : UInt8) :
    (b.write address value).cycles < b.cycles + 76 := by
  by_cases hreaches : b.ReachesVideo address
  · have hwait := b.tia.cyclesToLineStart_lt b.cycles
    have hstall := (b.tia.write_ends b.cycles b.afterRead address value).stall
    rw [(write_of_reachesVideo hreaches value).cycles, hstall]
    split <;> omega
  · rw [(write_of_not_reachesVideo hreaches value).cycles]
    omega

/-- Cycles that a record announces. -/
def announced : List BusEvent → Nat
  | [] => 0
  | .elapse cycles :: rest => cycles + announced rest
  | .read .. :: rest | .write .. :: rest => announced rest

/-- Without writes all cycles are announced. -/
theorem moments_of_reads {b : Board} {events : List BusEvent}
    (hreads : ∀ event ∈ events, event.isWrite = false)
    (hlimit : b.cycles + announced events < Board.cycleLimit) :
    Unsaturated (moments b events) ∧ spent (moments b events) = announced events ∧
      (replay b events).cycles = b.cycles + announced events := by
  induction events generalizing b with
  | nil => exact ⟨List.forall_mem_nil _, rfl, rfl⟩
  | cons event rest ih =>
    obtain ⟨hread, hrest⟩ := List.forall_mem_cons.mp hreads
    let moment : Moment Board := ⟨b, event⟩
    have hcycles : moment.after.cycles + announced rest = b.cycles + announced (event :: rest) := by
      cases event with
      | elapse cycles =>
        have hafter : moment.after.cycles = min (b.cycles + cycles) Board.cycleLimit := rfl
        simp only [announced] at hlimit ⊢
        omega
      | read address value =>
        have hafter : moment.after.cycles = b.cycles := (b.read_keeps address).2.2
        rw [hafter]
        rfl
      | write => exact absurd hread nofun
    obtain ⟨hunsaturated, hspent, hlast⟩ := ih (b := moment.after) hrest (by omega)
    have hbelow : moment.after.cycles < Board.cycleLimit := by omega
    have hmoment : b.cycles + moment.cycles = moment.after.cycles := Moment.cycles_add hbelow
    refine ⟨List.forall_mem_cons.mpr ⟨hbelow, hunsaturated⟩, ?_, hlast.trans hcycles⟩
    have hsum : spent (moments b (event :: rest)) = moment.cycles + spent (moments moment.after rest) := rfl
    rw [hsum, hspent]
    omega

/-! ## The grid -/

theorem Tia.lineClock_congr {s t : Tia} (h : t.beam.frameStart = s.beam.frameStart) (cycles : Nat) :
    t.lineClock cycles = s.lineClock cycles := by
  rw [Tia.lineClock, Tia.Beam.lineClock, h]
  rfl

/-- A board after a run since a reset, `base` being the cycles up to the last restart of the counter. -/
structure OnGrid (base : Nat) (run : List (Moment Board)) (b : Board) : Prop where
  wired : b.Wired
  frameStart_dvd : 3 ∣ b.tia.beam.frameStart
  afterRead : ∀ event, lastAccess? run = some event → b.afterRead = !event.isWrite
  spent_eq : Unsaturated run → base + b.cycles = spent run
  lineClock_eq : Unsaturated run → b.tia.lineClock b.cycles = 3 * spent run % 228

namespace OnGrid

variable {base : Nat} {run : List (Moment Board)} {b after : Board}

theorem step (h : OnGrid base run b) (event : BusEvent) :
    OnGrid base (run ++ [⟨b, event⟩]) (event.apply b) := by
  let moment : Moment Board := ⟨b, event⟩
  change OnGrid base (run ++ [moment]) moment.after
  have hstart : moment.after.tia.beam.frameStart = b.tia.beam.frameStart := moment.after_frameStart
  refine ⟨Moment.after_wired h.wired, ?_, ?_, ?_, ?_⟩
  · rw [hstart]
    exact h.frameStart_dvd
  · intro last hlast
    rw [lastAccess?_concat] at hlast
    split at hlast
    · next haccess =>
      obtain rfl := Option.some.inj hlast
      exact Moment.after_afterRead haccess
    · next hother =>
      obtain ⟨cycles, hcycles⟩ : ∃ cycles, event = .elapse cycles := by
        cases event with
        | elapse cycles => exact ⟨cycles, rfl⟩
        | read | write => exact absurd rfl hother
      have hsame : moment.after.afterRead = b.afterRead := by
        change (event.apply b).afterRead = b.afterRead
        rw [hcycles]
        rfl
      rw [hsame]
      exact h.afterRead last hlast
  · intro hrun
    obtain ⟨hpast, hlimit⟩ := unsaturated_concat.mp hrun
    calc
      base + moment.after.cycles = base + (b.cycles + moment.cycles) := by rw [Moment.cycles_add hlimit]
      _ = spent run + moment.cycles := by rw [← Nat.add_assoc, h.spent_eq hpast]
      _ = spent (run ++ [moment]) := (spent_concat run moment).symm
  · intro hrun
    obtain ⟨hpast, hlimit⟩ := unsaturated_concat.mp hrun
    calc
      moment.after.tia.lineClock moment.after.cycles = b.tia.lineClock (b.cycles + moment.cycles) := by
        rw [Tia.lineClock_congr hstart, Moment.cycles_add hlimit]
      _ = (b.tia.lineClock b.cycles + 3 * moment.cycles) % 228 := b.tia.lineClock_add b.cycles moment.cycles
      _ = (3 * spent run % 228 + 3 * moment.cycles) % 228 := by rw [h.lineClock_eq hpast]
      _ = 3 * spent (run ++ [moment]) % 228 := by
        rw [spent_concat]
        omega

/-- What touches neither the wiring nor the beam nor the clock. -/
theorem idle (h : OnGrid base run b) (hidle : b.Idles after) : OnGrid base run after := by
  have hline : after.tia.lineClock after.cycles = b.tia.lineClock b.cycles := by
    rw [hidle.cycles]
    exact Tia.lineClock_congr (congrArg Tia.Beam.frameStart hidle.beam) b.cycles
  refine ⟨hidle.wired h.wired, ?_, ?_, ?_, ?_⟩
  · rw [hidle.beam]
    exact h.frameStart_dvd
  · rw [hidle.afterRead]
    exact h.afterRead
  · rw [hidle.cycles]
    exact h.spent_eq
  · rw [hline]
    exact h.lineClock_eq

theorem lasts (base : Nat) : Board.Lasts (OnGrid base) where
  step _ _ event h := h.step event
  idle _ _ _ hidle h := h.idle hidle

/-- A frame begins where in its line the beam is. -/
theorem beginFrame (h : OnGrid base run b) :
    OnGrid (base + b.cycles) run (b.resetCycles.beginFrame (b.tia.lineClock b.cycles)) := by
  have hline : b.tia.lineClock b.cycles < 228 := by
    simp only [Tia.lineClock, Tia.Beam.lineClock, Tia.lineClocks]
    omega
  refine ⟨h.wired.of_eq rfl rfl rfl, ?_, h.afterRead, h.spent_eq, ?_⟩
  · change (3 : Int) ∣ -(b.tia.lineClock b.cycles : Int)
    have hdvd := Tia.lineClock_dvd h.frameStart_dvd b.cycles
    omega
  · intro hrun
    rw [← h.lineClock_eq hrun]
    change (((3 * 0 : Nat) - -(b.tia.lineClock b.cycles : Int)) % 228).toNat = b.tia.lineClock b.cycles
    omega

/-- Waiting for the line. -/
theorem wait (h : OnGrid base run b) {address : UInt16} {value : UInt8}
    (hvideo : address &&& 0x1080 = 0) (hnames : Tia.names address .wsync = true)
    {source : UInt16} {byte : UInt8} (hlast : lastAccess? run = some (.read source byte))
    (hlimit : (b.write address value).cycles < Board.cycleLimit) :
    IsLeast {cycle | b.cycles ≤ cycle ∧ b.tia.lineClock cycle = 0} (b.write address value).cycles ∧
      (b.write address value).cycles < b.cycles + 76 := by
  have hread : b.afterRead = true := h.afterRead _ hlast
  have hcycles := (Board.write_of_reachesVideo (h.wired.reachesVideo hvideo) value).cycles
  have hstall := (b.tia.write_ends b.cycles b.afterRead address value).stall
  rw [hnames, hread, Bool.and_self, if_pos rfl] at hstall
  rw [hread, hstall] at hcycles
  obtain ⟨hleast, hshort⟩ := Tia.cyclesToLineStart_isLeast h.frameStart_dvd b.cycles
  have hsum : (b.write address value).cycles = b.cycles + b.tia.cyclesToLineStart b.cycles := by omega
  rw [hsum]
  exact ⟨hleast, by omega⟩

end OnGrid

namespace Machine

/-- The machine after some calls of the frame pump. -/
def afterFrames (m : Machine) : (count : Nat) → Machine
  | 0 => m
  | count + 1 => m.processFrame.2.afterFrames count

/-- The moments of some calls of the frame pump. -/
def framesMoments (m : Machine) : (count : Nat) → List (Moment Board)
  | 0 => []
  | count + 1 => m.frameMoments ++ m.processFrame.2.framesMoments count

/-- The moments of a reset. -/
def resetMoments (m : Machine) : List (Moment Board) :=
  moments m.board.reset { m.core with bus := m.board.reset }.resetTranscript

/-- The moments of a reset and of some calls of the frame pump after it. -/
def momentsSinceReset (m : Machine) (count : Nat) : List (Moment Board) :=
  m.resetMoments ++ m.reset.framesMoments count

/-- A reset takes two cycles. -/
theorem resetMoments_spent (m : Machine) :
    ∃ low high, m.resetMoments =
        moments m.board.reset [.elapse 1, .read 0xFFFC low, .elapse 1, .read 0xFFFD high] ∧
      Unsaturated m.resetMoments ∧ spent m.resetMoments = 2 := by
  have htranscript : ∃ low high, { m.core with bus := m.board.reset }.resetTranscript =
      [.elapse 1, .read 0xFFFC low, .elapse 1, .read 0xFFFD high] := ⟨_, _, rfl⟩
  obtain ⟨low, high, hevents⟩ := htranscript
  have hreads : ∀ event ∈ [BusEvent.elapse 1, .read 0xFFFC low, .elapse 1, .read 0xFFFD high],
      event.isWrite = false := by simp [BusEvent.isWrite]
  have hcounted : m.board.reset.cycles +
      announced [.elapse 1, .read 0xFFFC low, .elapse 1, .read 0xFFFD high] = 2 := by
    rw [Board.reset_cycles]
    rfl
  have hlimit : 2 < Board.cycleLimit := by decide
  obtain ⟨hunsaturated, hspent, -⟩ := moments_of_reads (b := m.board.reset) hreads (hcounted ▸ hlimit)
  rw [resetMoments, hevents]
  exact ⟨low, high, rfl, hunsaturated, hspent⟩

section

variable {m : Machine} {base : Nat} {past : List (Moment Board)}

/-- What lasts holds at every moment of a reset, if it holds once the devices have been reset. -/
theorem reset_lasts {P : List (Moment Board) → Board → Prop} (h : Board.Lasts P)
    (hstart : P past m.board.reset) : Along P past m.resetMoments m.reset.board := by
  obtain ⟨event, hboard⟩ := m.reset_board
  rw [hboard]
  exact (Along.of_moments h.step hstart _).map_last fun hlast ↦ h.idle _ _ _ (.note _ event) hlast

theorem reset_along (h : m.board.Wired) : Along (OnGrid 0) [] m.resetMoments m.reset.board := by
  refine reset_lasts (OnGrid.lasts 0) ⟨h.reset, ?_, nofun, fun _ ↦ ?_, fun _ ↦ ?_⟩
  · rw [Board.reset_tia]
    exact Int.dvd_zero 3
  · rw [Board.reset_cycles]
    rfl
  · rw [Board.reset_cycles, Board.reset_tia]
    rfl

/-- Cycles that the counter has counted when a call of the frame pump restarts it. -/
def restarted (m : Machine) : Nat :=
  if m.board.tia.frame.drawing then 0 else m.board.cycles

theorem openFrame_onGrid (h : OnGrid base past m.board) :
    OnGrid (base + m.restarted) past m.openFrame.board := by
  unfold openFrame restarted
  split
  · exact h
  · exact h.beginFrame

theorem openFrame_elapsedCycles (m : Machine) :
    m.openFrame.elapsedCycles = m.elapsedCycles + m.restarted := by
  unfold openFrame restarted
  split <;> rfl

theorem closeFrame_elapsedCycles (m : Machine) (left : Nat) :
    (m.closeFrame left).2.elapsedCycles = m.elapsedCycles := by
  unfold closeFrame
  dsimp only
  split
  · unfold reportOverrun
    split <;> rfl
  · rfl

theorem processFrame_elapsedCycles (m : Machine) :
    m.processFrame.2.elapsedCycles = m.elapsedCycles + m.restarted := by
  rw [← openFrame_elapsedCycles]
  unfold processFrame
  dsimp only
  split
  · rfl
  · exact closeFrame_elapsedCycles _ _

/-- One frame. -/
theorem processFrame_along (h : OnGrid base past m.board) :
    Along (OnGrid (base + m.restarted)) past m.frameMoments m.processFrame.2.board :=
  processFrame_lasts (OnGrid.lasts _) (openFrame_onGrid h)

/-- Any number of frames. -/
theorem framesMoments_along (h : OnGrid base past m.board) (count : Nat) :
    Along (fun run b ↦ ∃ base, OnGrid base run b) past (m.framesMoments count)
        (m.afterFrames count).board ∧
      ∃ last, OnGrid last (past ++ m.framesMoments count) (m.afterFrames count).board ∧
        (m.afterFrames count).elapsedCycles + base = m.elapsedCycles + last := by
  induction count generalizing m base past with
  | zero =>
    refine ⟨⟨base, h⟩, base, ?_, rfl⟩
    rw [framesMoments, List.append_nil]
    exact h
  | succ count ih =>
    have hframe := processFrame_along h
    obtain ⟨hrest, last, hlast, hclock⟩ := ih hframe.last
    refine ⟨(hframe.mono fun _ _ hgrid ↦ ⟨_, hgrid⟩).append fun _ ↦ hrest, last, ?_, ?_⟩
    · rwa [List.append_assoc] at hlast
    · rw [processFrame_elapsedCycles] at hclock
      change (m.processFrame.2.afterFrames count).elapsedCycles + base = _
      omega

end

end Machine

/-! ## A wait for the line -/

/-- A store to an address of the first page, and a vector that points there. -/
def storing (operand : UInt8) (offset : Nat) : UInt8 :=
  if offset = 0 then 0x85 else if offset = 1 then operand else if offset = 0x7FD then 0x10 else 0

/-- A store to the register that waits for the line, and a vector that points there. -/
def lineWait (offset : Nat) : UInt8 :=
  if offset = 0 then 0x85 else if offset = 1 then 0x02 else if offset = 0x7FD then 0x10 else 0

theorem storing_wsync : storing 0x02 = lineWait := rfl

/-- What happens before the store. -/
def beforeStore (operand byte : UInt8) : List BusEvent :=
  [.elapse 1, .read 0x1000 0x85, .elapse 1, .read 0x1001 operand, .elapse 1,
    .read operand.toUInt16 byte]

namespace Processor

/-- The store reads the address before it writes to it. -/
theorem transcript_of_storing {operand : UInt8} {p : Processor Board}
    (h : p.bus.Shows (storing operand)) (hpc : p.registers.pc = 0x1000) :
    ∃ byte value rest, p.transcript =
      beforeStore operand byte ++ .write operand.toUInt16 value :: rest := by
  obtain ⟨hopcode, hnext, hfetched⟩ := fetch_of_shows h hpc (by decide)
  obtain ⟨hoperand, -, -⟩ := fetch_of_shows (h.coasts hfetched) hnext (by decide)
  let begun := p.record.fetchOpcode
  have hbegun : begun.bus.events = [.elapse 1, .read 0x1000 0x85] := by
    have hevents := p.record.peek_events p.registers.pc
    change begun.bus.events = [] ++ [.elapse 1, .read p.registers.pc p.fetch.latch] at hevents
    rw [hevents, hopcode, hpc]
    rfl
  have hlatch : begun.fetch.latch = operand := hoperand
  have hfetch : begun.fetch.bus.events = begun.bus.events ++ [.elapse 1, .read 0x1001 operand] := by
    have hevents := begun.peek_events begun.registers.pc
    change begun.fetch.bus.events = begun.bus.events ++ [.elapse 1, .read p.fetch.registers.pc
      begun.fetch.latch] at hevents
    rw [hevents, hlatch, hnext]
    rfl
  have hdecoded : Instruction.decode begun.opcode = ⟨.sta, .zeroPage, 3, .fixed⟩ := by
    have hstore : p.fetch.latch = 0x85 := hopcode
    change Instruction.decode p.fetch.latch = _
    rw [hstore]
    decide
  let address := operand.toUInt16
  let found := { begun.fetch with address := address }.peek address
  have hrefers : begun.readOperand .zeroPage = found := by
    change begun.fetch.readAt begun.fetch.latch.toUInt16 = found
    rw [hlatch]
    rfl
  have hread : found.bus.events = begun.fetch.bus.events ++ [.elapse 1, .read address found.latch] :=
    { begun.fetch with address := address }.peek_events address
  let written := begun.execute (.store .a) .zeroPage
  have hwrite : ∃ value, written.bus.events = found.bus.events ++ [.write address value] := by
    have hpoke : written = (begun.readOperand .zeroPage).poke (begun.readOperand .zeroPage).address
      (StoreSource.a.value (begun.readOperand .zeroPage).registers) := rfl
    rw [hpoke, hrefers]
    exact ⟨_, rfl⟩
  have hstep : ∃ cost, p.transcript = (written.settle cost).bus.events := by
    have hoperation : (Instruction.decode begun.opcode).mnemonic.operation = some (.store .a) := by
      rw [hdecoded]
      rfl
    rw [transcript, step_of_operation hoperation]
    change ∃ cost, ((begun.execute (.store .a) (Instruction.decode begun.opcode).mode).settle _).bus.events = _
    rw [hdecoded]
    exact ⟨_, rfl⟩
  obtain ⟨value, hwrite⟩ := hwrite
  obtain ⟨cost, hstep⟩ := hstep
  obtain ⟨rest, hsettle, -⟩ := written.emits_settle cost
  refine ⟨found.latch, value, rest, ?_⟩
  rw [hstep, hsettle, hwrite, hread, hfetch, hbegun]
  simp only [beforeStore, List.cons_append, List.nil_append]
  rfl

end Processor

namespace Machine

theorem frameMoments_eq (m : Machine) :
    let p : Processor Board := { m.openFrame.core with bus := { m.openFrame.board with stop := false } }
    ∃ rest, m.frameMoments = moments p.bus p.transcript ++ rest := by
  have hinstructions : sliceInstructions = 24999 + 1 := rfl
  have hslices : sliceBudget = 9 + 1 := rfl
  rw [frameMoments, hslices, sliceMoments, hinstructions, Processor.runMoments, List.append_assoc]
  exact ⟨_, rfl⟩

/-- A frame that begins with the store. -/
theorem frameMoments_of_storing {operand : UInt8} {m : Machine} (h : m.board.Shows (storing operand))
    (hpc : m.core.registers.pc = 0x1000) (hbetween : m.board.tia.frame.drawing = false) :
    ∃ byte past moment value rest, m.frameMoments = past ++ moment :: rest ∧
      past.map Moment.event = beforeStore operand byte ∧ moment.event = .write operand.toUInt16 value ∧
      Unsaturated past ∧ spent past = 3 ∧ moment.bus.cycles = 3 := by
  obtain ⟨hregisters, hkept⟩ := m.openFrame_keepsSetup
  have hcycles : m.openFrame.board.cycles = 0 := by
    rw [openFrame, hbetween, if_neg Bool.false_ne_true]
    rfl
  obtain ⟨rest, hframe⟩ := m.frameMoments_eq
  generalize m.openFrame = opened at hregisters hkept hcycles hframe
  let p : Processor Board := { opened.core with bus := { opened.board with stop := false } }
  have hshows : p.bus.Shows (storing operand) :=
    h.keepsSetup (hkept.board.trans ⟨rfl, rfl, rfl, rfl, rfl, rfl⟩)
  have hat : p.registers.pc = 0x1000 := (congrArg Registers.pc hregisters).trans hpc
  obtain ⟨byte, value, later, htranscript⟩ := Processor.transcript_of_storing hshows hat
  have hreads : ∀ event ∈ beforeStore operand byte, event.isWrite = false := by
    simp [beforeStore, BusEvent.isWrite]
  have hstart : p.bus.cycles = 0 := hcycles
  have hannounced : announced (beforeStore operand byte) = 3 := rfl
  have hroom : 3 < Board.cycleLimit := by decide
  obtain ⟨hbelow, htime, hlast⟩ := moments_of_reads (b := p.bus) hreads (by omega)
  let store : Moment Board := ⟨replay p.bus (beforeStore operand byte), .write operand.toUInt16 value⟩
  have hrun : m.frameMoments = moments p.bus (beforeStore operand byte) ++
      store :: (moments store.after later ++ rest) := by
    have hbegun : m.frameMoments = moments p.bus p.transcript ++ rest := hframe
    rw [hbegun, htranscript, moments_append, List.append_assoc]
    rfl
  refine ⟨byte, _, store, value, _, hrun, map_event_moments _ _, rfl, hbelow,
    htime.trans hannounced, ?_⟩
  exact hlast.trans (by rw [hstart, hannounced])

/-- The store that follows a reset, and what has happened by then. -/
theorem exists_lineWait {m : Machine} (h : m.board.Shows lineWait) :
    ∃ past moment value rest, m.momentsSinceReset 1 = past ++ moment :: rest ∧ past.length = 10 ∧
      moment.event = .write 0x0002 value ∧ Unsaturated past ∧ spent past = 5 ∧
        (∃ byte, lastAccess? past = some (.read 0x0002 byte)) ∧ moment.bus.cycles = 3 := by
  obtain ⟨hreset, hpc, hbetween⟩ := reset_of_shows h
  rw [← storing_wsync] at hreset
  obtain ⟨byte, before, moment, value, rest, hframe, hbefore, hwrite, hbelow, htime, hcycles⟩ :=
    frameMoments_of_storing hreset (hpc.trans (by decide)) hbetween
  obtain ⟨low, high, hvector, hunsaturated, hspent⟩ := m.resetMoments_spent
  have hrun : m.momentsSinceReset 1 = m.resetMoments ++ before ++ moment :: rest := by
    have hsplit : m.momentsSinceReset 1 = m.resetMoments ++ (m.reset.frameMoments ++ []) := rfl
    rw [hsplit, hframe, List.append_nil, List.append_assoc]
  have hevents : (m.resetMoments ++ before).map Moment.event =
      [.elapse 1, .read 0xFFFC low, .elapse 1, .read 0xFFFD high] ++ beforeStore 0x02 byte := by
    rw [List.map_append, hvector, map_event_moments, hbefore]
  refine ⟨_, moment, value, rest, hrun, ?_, hwrite, ?_, ?_, ⟨byte, ?_⟩, hcycles⟩
  · rw [← List.length_map Moment.event, hevents]
    rfl
  · exact List.forall_mem_append.mpr ⟨hunsaturated, hbelow⟩
  · rw [spent_append, hspent, htime]
  · rw [lastAccess?, hevents]
    rfl

/-- Since a reset the beam has been on one grid. -/
theorem momentsSinceReset_onGrid {m : Machine} (h : Reachable m) (count : Nat) :
    let run := m.momentsSinceReset count
    let last := m.reset.afterFrames count
    (Unsaturated run →
      last.elapsedCycles + last.board.cycles = m.reset.elapsedCycles + spent run ∧
        last.board.tia.lineClock last.board.cycles = 3 * spent run % 228) ∧
      ∀ index moment, run[index]? = some moment →
        (Unsaturated (run.take index) →
          moment.bus.tia.lineClock moment.bus.cycles = 3 * spent (run.take index) % 228) ∧
        ∀ address value, moment.event = .write address value → address &&& 0x1080 = 0 →
          Tia.names address .wsync = true →
          ∀ source byte, lastAccess? (run.take index) = some (.read source byte) →
            moment.after.cycles < Board.cycleLimit →
              IsLeast {cycle | moment.bus.cycles ≤ cycle ∧ moment.bus.tia.lineClock cycle = 0}
                  moment.after.cycles ∧
                moment.after.cycles < moment.bus.cycles + 76 := by
  intro run last
  have hreset := reset_along h.kept.wired
  obtain ⟨hframes, base, hlast, hclock⟩ := framesMoments_along hreset.last count
  have hall : Along (fun run b ↦ ∃ base, OnGrid base run b) [] run last.board :=
    (hreset.mono fun _ _ hgrid ↦ ⟨_, hgrid⟩).append fun _ ↦ hframes
  refine ⟨fun hrun ↦ ⟨?_, hlast.lineClock_eq hrun⟩, ?_⟩
  · have htotal : base + last.board.cycles = spent run := hlast.spent_eq hrun
    change last.elapsedCycles + 0 = m.reset.elapsedCycles + base at hclock
    omega
  · intro index moment hmoment
    obtain ⟨base, hgrid⟩ := hall.getElem? hmoment
    refine ⟨hgrid.lineClock_eq, ?_⟩
    intro address value hwrite hvideo hnames source byte hbefore hlimit
    have hafter : moment.after = moment.bus.write address value := by
      rw [Moment.after, hwrite]
      rfl
    rw [hafter] at hlimit ⊢
    exact hgrid.wait hvideo hnames hbefore hlimit

/-- A store to the register that waits for the line waits for it. -/
theorem momentsSinceReset_onGrid_of_lineWait :
    let m := running lineWait {} (Riot.new 0) {}
    ∃ moment value, (m.momentsSinceReset 1)[10]? = some moment ∧ moment.event = .write 0x0002 value ∧
      moment.bus.tia.lineClock moment.bus.cycles = 15 ∧
        IsLeast {cycle | moment.bus.cycles ≤ cycle ∧ moment.bus.tia.lineClock cycle = 0}
            moment.after.cycles ∧
          moment.after.cycles < moment.bus.cycles + 76 := by
  have hreachable := running_reachable lineWait {} (Riot.new 0) {}
  obtain ⟨hshows, -⟩ := running_shows lineWait {} (Riot.new 0) {}
  dsimp only
  generalize running lineWait {} (Riot.new 0) {} = m at hreachable hshows ⊢
  obtain ⟨past, moment, value, rest, hrun, hlength, hwrite, hunsaturated, hspent, ⟨byte, hlast⟩,
    hcycles⟩ := exists_lineWait hshows
  have hmoment : (m.momentsSinceReset 1)[10]? = some moment := by
    rw [hrun, ← hlength, List.getElem?_append_right (Nat.le_refl _), Nat.sub_self]
    rfl
  have htake : (m.momentsSinceReset 1).take 10 = past := by
    rw [hrun, ← hlength]
    exact List.take_left
  obtain ⟨-, hgrid⟩ := momentsSinceReset_onGrid hreachable 1
  obtain ⟨hline, hwait⟩ := hgrid 10 moment hmoment
  rw [htake] at hline hwait
  have hlimit : moment.after.cycles < Board.cycleLimit := by
    have hafter : moment.after = moment.bus.write 0x0002 value := by
      rw [Moment.after, hwrite]
      rfl
    have hwritten := moment.bus.write_cycles_lt 0x0002 value
    have hroom : 79 < Board.cycleLimit := by decide
    rw [hafter]
    omega
  refine ⟨moment, value, hmoment, hwrite, ?_, ?_⟩
  · rw [hline hunsaturated, hspent]
  · exact hwait 0x0002 value hwrite (by decide) (by decide) 0x0002 byte hlast hlimit

end Machine

end Vcs
