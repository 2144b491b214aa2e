import Vcs.Proofs.Console.SelfJump
import Vcs.Proofs.Processor.Slicing

/-!
# Frames in Slices

The pump runs the processor a slice at a time, and a frame that has not ended when the budget is spent goes on
with the next call.  Between two slices the pump clears a request that is not there, for while a frame is being
drawn nobody has asked for a stop; and what it notes at the end of a call leaves an unfinished frame alone.
Main statement: the calls that a frame takes come to one run of the processor.  Registers and board are those
that this run leaves, apart from the journal, and if the frame has ended, then that it has ended is noted.
-/

namespace Vcs

namespace Board

/-- Two boards that differ in their journals at most. -/
def SameButJournal (b c : Board) : Prop :=
  ∃ journal, c = { b with journal := journal }

namespace SameButJournal

variable {b c : Board}

theorem elapse (h : b.SameButJournal c) (cycles : Nat) :
    (b.elapse cycles).SameButJournal (c.elapse cycles) := by
  obtain ⟨journal, rfl⟩ := h
  exact ⟨journal, rfl⟩

theorem readTia (h : b.SameButJournal c) (address : UInt16) :
    (b.readTia address).SameButJournal (c.readTia address) := by
  obtain ⟨journal, rfl⟩ := h
  exact ⟨journal, rfl⟩

theorem writeTia (h : b.SameButJournal c) (address : UInt16) (value : UInt8) :
    (b.writeTia address value).SameButJournal (c.writeTia address value) := by
  obtain ⟨journal, rfl⟩ := h
  exact ⟨_, rfl⟩

theorem readRiot (h : b.SameButJournal c) (address : UInt16) :
    (b.readRiot address).SameButJournal (c.readRiot address) := by
  obtain ⟨journal, rfl⟩ := h
  exact ⟨journal, rfl⟩

theorem writeRiot (h : b.SameButJournal c) (address : UInt16) (value : UInt8) :
    (b.writeRiot address value).SameButJournal (c.writeRiot address value) := by
  obtain ⟨journal, rfl⟩ := h
  exact ⟨journal, rfl⟩

theorem readCartridge (h : b.SameButJournal c) (address : UInt16) :
    (b.readCartridge address).SameButJournal (c.readCartridge address) := by
  obtain ⟨journal, rfl⟩ := h
  unfold Board.readCartridge
  dsimp only
  split <;> exact ⟨_, rfl⟩

theorem writeCartridge (h : b.SameButJournal c) (address : UInt16) (value : UInt8) :
    (b.writeCartridge address value).SameButJournal (c.writeCartridge address value) := by
  obtain ⟨journal, rfl⟩ := h
  unfold Board.writeCartridge
  dsimp only
  split <;> exact ⟨_, rfl⟩

theorem readDevice (h : b.SameButJournal c) (id : DeviceId) (address : UInt16) :
    (b.readDevice id address).SameButJournal (c.readDevice id address) := by
  unfold Board.readDevice
  split_ifs
  · exact h.readCartridge address
  · exact h.readRiot address
  · exact h.readTia address

theorem writeDevice (h : b.SameButJournal c) (id : DeviceId) (address : UInt16) (value : UInt8) :
    (b.writeDevice id address value).SameButJournal (c.writeDevice id address value) := by
  unfold Board.writeDevice
  dsimp only
  split_ifs
  · exact (h.writeCartridge address value).writeTia address value
  · exact h.writeCartridge address value
  · exact h.writeRiot address value
  · exact h.writeTia address value

theorem read (h : b.SameButJournal c) (address : UInt16) :
    (b.read address).SameButJournal (c.read address) := by
  have hdevice (id : DeviceId) := h.readDevice id address
  obtain ⟨journal, rfl⟩ := h
  simp only [Board.read]
  split
  · exact ⟨journal, rfl⟩
  · next id _ =>
    obtain ⟨kept, hkept⟩ := hdevice id
    exact ⟨kept, by rw [hkept]⟩

theorem write (h : b.SameButJournal c) (address : UInt16) (value : UInt8) :
    (b.write address value).SameButJournal (c.write address value) := by
  have hdevice (id : DeviceId) (store : Store) :
      SameButJournal (Board.writeDevice { b with store := store } id address value)
        (Board.writeDevice { c with store := store } id address value) := by
    obtain ⟨journal, rfl⟩ := h
    exact writeDevice ⟨journal, rfl⟩ id address value
  obtain ⟨journal, rfl⟩ := h
  simp only [Board.write]
  split
  · exact ⟨journal, rfl⟩
  · next id store _ =>
    obtain ⟨kept, hkept⟩ := hdevice id store
    exact ⟨kept, by rw [hkept]⟩

end SameButJournal

/-- The processor does not see the journal. -/
theorem sameButJournal_simulation : Bus.Simulation SameButJournal where
  latch := fun ⟨_, hc⟩ ↦ hc ▸ rfl
  stopRequested := fun ⟨_, hc⟩ ↦ hc ▸ rfl
  read address h := h.read address
  write address value h := h.write address value
  elapse cycles h := h.elapse cycles

/-- The board once the end of its frame, if it has ended, is noted. -/
def noted (b : Board) : Board :=
  { b with tia := (b.tia.finishFrame b.cycles).2 }

theorem noted_of_drawing {b : Board} (h : b.tia.frame.drawing = true) : b.noted = b := by
  rw [noted, Tia.finishFrame, if_pos h]

theorem StopsWhenOver.stop_eq {b : Board} (h : b.StopsWhenOver) (hdrawing : b.tia.frame.drawing = true) :
    b.stop = false := by
  rw [h, hdrawing]
  rfl

end Board

namespace Processor

theorem runFrom_stopsWhenOver {p last : Processor Board} {count : Nat} {result : Except Fault Nat}
    (h : p.bus.StopsWhenOver) (hrun : p.run count = (result, last)) : last.bus.StopsWhenOver := by
  have hkept : (p.run count).2.bus.StopsWhenOver := runFrom_keeps Board.keeps_stopsWhenOver h 0 count
  rwa [hrun] at hkept

/-- The processor with no request to stop on its board. -/
def cleared (p : Processor Board) : Processor Board :=
  { p with bus := { p.bus with stop := false } }

theorem cleared_eq {p : Processor Board} (h : p.bus.stop = false) : p.cleared = p := by
  have hbus : { p.bus with stop := false } = p.bus := by rw [← h]
  rw [cleared, hbus]

end Processor

namespace Machine

/-! ## The slices of a call -/

/-- A run that has left its frame unfinished, or over, as the request to stop tells. -/
structure RunsTo (p : Processor Board) (count : Nat) (last : Processor Board) : Prop where
  run_eq : p.run count = (.ok count, last)
  stops : last.bus.StopsWhenOver
  goesOn : last.bus.tia.frame.drawing = true → p.GoesOn count

theorem RunsTo.of_run {p last : Processor Board} {budget count : Nat} (h : p.bus.StopsWhenOver)
    (hrun : p.run budget = (.ok count, last)) : RunsTo p count last where
  run_eq := Processor.run_of_ok hrun
  stops := Processor.runFrom_stopsWhenOver h hrun
  goesOn hdrawing := by
    have hstop := (Processor.runFrom_stopsWhenOver h hrun).stop_eq hdrawing
    obtain ⟨rfl, hgoesOn, -⟩ := Processor.goesOn_of_run hrun hstop
    exact hgoesOn

/-- A run in the middle of a frame, and the run that takes it up. -/
theorem RunsTo.trans {p middle last : Processor Board} {first second : Nat}
    (h : RunsTo p first middle) (hdrawing : middle.bus.tia.frame.drawing = true)
    (hnext : RunsTo middle second last) : RunsTo p (first + second) last := by
  have hgoesOn := h.goesOn hdrawing
  have hmiddle : p.stepped first = middle :=
    congrArg Prod.snd ((Processor.run_of_goesOn hgoesOn).symm.trans h.run_eq)
  refine ⟨?_, hnext.stops, ?_⟩
  · rw [Processor.run_add hgoesOn, hmiddle, hnext.run_eq]
    rfl
  · intro hlast
    exact hgoesOn.add (hmiddle ▸ hnext.goesOn hlast)

theorem runSlices_runsTo {core last : Processor Board} {budget left : Nat}
    (hstops : core.bus.StopsWhenOver) (hdrawing : core.bus.tia.frame.drawing = true)
    (h : runSlices core budget = (.ok left, last)) : ∃ count, RunsTo core count last := by
  induction budget generalizing core with
  | zero =>
    obtain ⟨-, rfl⟩ := Prod.mk.inj h
    have hrun : core.run 0 = (.ok 0, core) := rfl
    exact ⟨0, .of_run hstops hrun⟩
  | succ budget ih =>
    have hslice : runSlice core = core.run sliceInstructions := by
      change core.cleared.run sliceInstructions = core.run sliceInstructions
      rw [Processor.cleared_eq (hstops.stop_eq hdrawing)]
    rcases hrun : core.run sliceInstructions with ⟨_ | count, next⟩
    · simp only [runSlices, hslice, hrun, Prod.mk.injEq, reduceCtorEq, false_and] at h
    · have hnext : RunsTo core count next := .of_run hstops hrun
      simp only [runSlices, hslice, hrun] at h
      split at h
      · next hstill =>
        obtain ⟨rest, hrest⟩ := ih hnext.stops hstill h
        exact ⟨count + rest, hnext.trans hstill hrest⟩
      · obtain ⟨-, rfl⟩ := Prod.mk.inj h
        exact ⟨count, hnext⟩

/-- Two processors at the same point of a program, on boards that differ in their journals at most. -/
structure SamePoint (p q : Processor Board) : Prop extends p.Alike Board.SameButJournal q where
  retired : p.retired = q.retired

theorem SamePoint.run {p q last : Processor Board} {count : Nat} (h : SamePoint p q)
    (hrun : q.run count = (.ok count, last)) :
    ∃ other, p.run count = (.ok count, other) ∧ SamePoint other last := by
  obtain ⟨hresult, halike⟩ := h.toAlike.runFrom Board.sameButJournal_simulation 0 count
  change (p.run count).1 = (q.run count).1 at hresult
  rcases hother : p.run count with ⟨result, other⟩
  rw [hother, hrun] at hresult
  cases hresult
  change (p.run count).2.Alike Board.SameButJournal (q.run count).2 at halike
  rw [hother, hrun] at halike
  have hfirst := (Processor.runFrom_retired hother).1
  have hsecond := (Processor.runFrom_retired hrun).1
  have hretired := h.retired
  exact ⟨other, rfl, halike, by omega⟩

/-- The processor once the end of the frame, if it has ended, is noted. -/
def noted (core : Processor Board) : Processor Board :=
  { core with bus := core.bus.noted }

theorem closeFrame_samePoint (m : Machine) (left : Nat) :
    SamePoint (noted m.core) (m.closeFrame left).2.core := by
  unfold closeFrame
  dsimp only
  split
  · unfold reportOverrun
    split
    · exact ⟨⟨rfl, rfl, rfl, ⟨_, rfl⟩⟩, rfl⟩
    · exact ⟨⟨rfl, rfl, rfl, ⟨_, rfl⟩⟩, rfl⟩
  · exact ⟨⟨rfl, rfl, rfl, ⟨_, rfl⟩⟩, rfl⟩

theorem SamePoint.noted {p q : Processor Board} (h : SamePoint p q) :
    SamePoint (noted p) (noted q) := by
  obtain ⟨journal, hbus⟩ := h.bus
  refine ⟨⟨h.registers, h.surcharge, h.signalled, journal, ?_⟩, h.retired⟩
  change q.bus.noted = { p.bus.noted with journal := journal }
  rw [hbus]
  rfl

theorem SamePoint.trans {p q r : Processor Board} (h : SamePoint p q) (hnext : SamePoint q r) :
    SamePoint p r := by
  obtain ⟨journal, hbus⟩ := h.bus
  obtain ⟨later, hlater⟩ := hnext.bus
  refine ⟨⟨h.registers.trans hnext.registers, h.surcharge.trans hnext.surcharge,
    h.signalled.trans hnext.signalled, later, ?_⟩, h.retired.trans hnext.retired⟩
  rw [hlater, hbus]

/-- The processor as a call of the pump starts it. -/
def launched (m : Machine) : Processor Board :=
  m.openFrame.core.cleared

theorem launched_drawing (m : Machine) : m.launched.bus.tia.frame.drawing = true :=
  m.openFrame_drawing

theorem launched_stops (m : Machine) : m.launched.bus.StopsWhenOver := by
  rw [Board.StopsWhenOver, m.launched_drawing]
  rfl

/-- A call is a run, and what it notes. -/
theorem processFrame_runsTo {m next : Machine} {status : FrameStatus}
    (h : m.processFrame = (.ok status, next)) :
    ∃ count last, RunsTo m.launched count last ∧ SamePoint (noted last) next.core := by
  have hlaunched : runSlices m.openFrame.core sliceBudget = runSlices m.launched sliceBudget := rfl
  unfold processFrame at h
  dsimp only at h
  rw [hlaunched] at h
  rcases hrun : runSlices m.launched sliceBudget with ⟨_ | left, last⟩
  · simp only [hrun, Prod.mk.injEq, reduceCtorEq, false_and] at h
  · simp only [hrun, Prod.mk.injEq] at h
    obtain ⟨-, rfl⟩ := h
    obtain ⟨count, hcount⟩ := runSlices_runsTo m.launched_stops m.launched_drawing hrun
    exact ⟨count, last, hcount, closeFrame_samePoint { m.openFrame with core := last } left⟩

/-- The machine after some calls of the pump, whatever they come to. -/
def pumped (m : Machine) (calls : Nat) : Machine :=
  (fun m ↦ m.processFrame.2)^[calls] m

theorem pumped_succ (m : Machine) (calls : Nat) :
    m.pumped (calls + 1) = (m.pumped calls).processFrame.2 :=
  Function.iterate_succ_apply' _ calls m

theorem launched_eq {m : Machine} (hdrawing : m.board.tia.frame.drawing = true)
    (hstop : m.board.stop = false) : m.launched = m.core := by
  have hopen : m.openFrame = m := by rw [openFrame, if_pos hdrawing]
  rw [launched, hopen]
  exact Processor.cleared_eq hstop

/-- In the middle of a frame what a call leaves is what its run has left. -/
theorem samePoint_of_drawing {last core : Processor Board} (h : SamePoint (noted last) core)
    (hdrawing : core.bus.tia.frame.drawing = true) :
    last.bus.tia.frame.drawing = true ∧ SamePoint last core := by
  obtain ⟨journal, hbus⟩ := h.bus
  have hlast : last.bus.tia.frame.drawing = true := by
    rw [hbus] at hdrawing
    exact (last.bus.tia.finishFrame_frame last.bus.cycles).1.symm.trans hdrawing
  have hsame : noted last = last := by rw [noted, Board.noted_of_drawing hlast]
  exact ⟨hlast, hsame ▸ h⟩

/-- The calls that a frame takes come to one run. -/
theorem pumped_runsTo (m : Machine) (calls : Nat)
    (hok : ∀ call ≤ calls, ∃ status, (m.pumped call).processFrame.1 = .ok status)
    (hunfinished : ∀ call < calls, (m.pumped (call + 1)).board.tia.frame.drawing = true) :
    ∃ count last, RunsTo m.launched count last ∧ SamePoint (noted last) (m.pumped (calls + 1)).core := by
  induction calls with
  | zero =>
    obtain ⟨status, hstatus⟩ := hok 0 (Nat.le_refl 0)
    exact processFrame_runsTo (Prod.ext hstatus rfl)
  | succ calls ih =>
    obtain ⟨count, last, hrun, hsame⟩ := ih (fun call hle ↦ hok call (Nat.le_succ_of_le hle))
      fun call hlt ↦ hunfinished call (Nat.lt_succ_of_lt hlt)
    obtain ⟨status, hstatus⟩ := hok (calls + 1) (Nat.le_refl _)
    have hdrawing := hunfinished calls (Nat.lt_succ_self calls)
    obtain ⟨hlast, hpoint⟩ := samePoint_of_drawing hsame hdrawing
    have hstop : (m.pumped (calls + 1)).board.stop = false :=
      (Board.sameButJournal_simulation.stopRequested hpoint.bus).symm.trans (hrun.stops.stop_eq hlast)
    obtain ⟨more, reached, hmore, hend⟩ := processFrame_runsTo (Prod.ext hstatus rfl)
    rw [launched_eq hdrawing hstop] at hmore
    obtain ⟨other, hother, hpointer⟩ := hpoint.run hmore.run_eq
    rw [pumped_succ]
    exact ⟨count + more, other, hrun.trans hlast (.of_run hrun.stops hother),
      hpointer.noted.trans hend⟩

/-- The calls of the pump that a frame takes leave the registers and the board as one run does that executes as
many instructions, started once with no request to stop; the journal apart, and the end of the frame, if it
has ended, being noted.  For on every bus a run that was not stopped and the run that takes it up are one,
and a run is stopped by the first instruction that leaves a request and by no other. -/
theorem slicing_invisible (m : Machine) {calls : Nat} (hcalls : 0 < calls)
    (hok : ∀ call < calls, ∃ status, (m.pumped call).processFrame.1 = .ok status)
    (hunfinished : ∀ call, 0 < call → call < calls →
      (m.pumped call).board.tia.frame.drawing = true) :
    (∃ count last, m.launched.run count = (.ok count, last) ∧
      (m.pumped calls).core.retired = m.core.retired + count ∧
      (m.pumped calls).core.registers = last.registers ∧
      (m.pumped calls).board =
        { last.bus.noted with journal := (m.pumped calls).board.journal }) ∧
    ∀ {β : Type} [Bus β] (p : Processor β),
      (∀ first second, p.GoesOn first →
        p.run first = (.ok first, p.stepped first) ∧
        p.run (first + second) =
          (((p.stepped first).run second).1.map (first + ·), ((p.stepped first).run second).2)) ∧
      ∀ budget, p.Ending budget (p.run budget) := by
  obtain ⟨last, rfl⟩ := Nat.exists_eq_add_of_lt hcalls
  rw [Nat.zero_add] at hok hunfinished ⊢
  refine ⟨?_, fun p ↦ ⟨fun first second h ↦ ⟨Processor.run_of_goesOn h, Processor.run_add h second⟩,
    p.run_ending⟩⟩
  obtain ⟨count, reached, hrun, hsame⟩ := m.pumped_runsTo last
    (fun call hle ↦ hok call (Nat.lt_succ_of_le hle))
    fun call hlt ↦ hunfinished (call + 1) (Nat.succ_pos call) (Nat.succ_lt_succ hlt)
  have hretired := (Processor.runFrom_retired hrun.run_eq).1
  obtain ⟨journal, hbus⟩ := hsame.bus
  refine ⟨count, reached, hrun.run_eq, ?_, hsame.registers.symm, ?_⟩
  · calc
      (m.pumped (last + 1)).core.retired = reached.retired := hsame.retired.symm
      _ = m.launched.retired + count := hretired
      _ = m.core.retired + count := congrArg (· + count) m.openFrame_retired
  · have hboard : (m.pumped (last + 1)).board = { reached.bus.noted with journal := journal } := hbus
    rw [hboard]

/-- A frame that is still unfinished after two calls. -/
theorem slicing_invisible_of_selfJump :
    let m := running selfJump {} (Riot.new 0) {}
    (∀ call < 2, (m.pumped call).processFrame.1 = .ok .overrun) ∧
      (m.pumped 1).board.tia.frame.drawing = true ∧
      ∃ count last, m.launched.run count = (.ok count, last) ∧
        (m.pumped 2).core.registers = last.registers ∧
        (m.pumped 2).board = { last.bus.noted with journal := (m.pumped 2).board.journal } := by
  have hstart := running_spins {} (Riot.new 0) {}
  dsimp only
  generalize running selfJump {} (Riot.new 0) {} = m at hstart ⊢
  have hspins (calls : Nat) : (m.pumped calls).Spins := by
    induction calls with
    | zero => exact hstart
    | succ calls ih =>
      rw [pumped_succ]
      exact (processFrame_of_spins ih).2.1
  have hover (call : Nat) : (m.pumped call).processFrame.1 = .ok .overrun :=
    (processFrame_of_spins (hspins call)).1
  have hdrawing : (m.pumped 1).board.tia.frame.drawing = true := by
    rw [pumped_succ]
    exact (processFrame_of_spins hstart).2.2.1
  have htwo : 0 < 2 := Nat.two_pos
  have hunfinished : ∀ call, 0 < call → call < 2 → (m.pumped call).board.tia.frame.drawing = true := by
    intro call hpos hlt
    obtain rfl : call = 1 := by omega
    exact hdrawing
  obtain ⟨⟨count, last, hrun, -, hregisters, hboard⟩, -⟩ :=
    slicing_invisible m htwo (fun call _ ↦ ⟨.overrun, hover call⟩) hunfinished
  exact ⟨fun call _ ↦ hover call, hdrawing, count, last, hrun, hregisters, hboard⟩

/-- A machine in the middle of a frame, sync having been raised for a line.  The program in memory is about to
release it. -/
def releasing : Machine where
  core := {
    bus := Board.new { frame := { drawing := true, syncDue := 0 } }
      ⟨#[0x85, 0x00] ++ Array.replicate 126 0⟩ (Riot.new 0).2 {}
    registers := { pc := 0x80 } }
  config := {}
  television := .ntsc
  yStart := fallbackYStart
  height := fallbackHeight

/-- The run does not note that the frame has ended, but the call does. -/
theorem processFrame_notes_end :
    let last := (releasing.launched.run 1).2
    releasing.processFrame.1 = .ok .complete ∧ (releasing.launched.run 1).1 = .ok 1 ∧
      releasing.processFrame.2.core.retired = last.retired ∧
      last.bus.tia.frame.completed = 0 ∧
      releasing.processFrame.2.board.tia.frame.completed = 1 := by
  decide +kernel

end Machine

end Vcs
