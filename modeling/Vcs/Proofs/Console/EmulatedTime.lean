import Vcs.Proofs.Console.FrameStatus
import Vcs.Proofs.Console.ScanlineGrid

/-!
# Emulated Time

The time that a console shows is an account and a counter.  The counter restarts with every frame, and what it
has counted is paid into the account first.  A reset restarts the counter as well, and pays nothing in.  Main
statement: the time shown is all that the processor has spent since a cartridge was inserted, the vector that it
fetched first included, less what the counter had counted at each reset.  So it is right exactly as long as
nobody resets the machine.  It never goes back from one frame to the next, but a reset sets it back by whatever
the counter had counted, the two cycles for the vector excepted.
-/

namespace Vcs

/-- Cycles for which a write holds the processor. -/
def Board.wait (b : Board) (address : UInt16) : Nat :=
  if address &&& 0x1080 = 0 ∧ (Tia.names address .wsync && b.afterRead) = true then
    b.tia.cyclesToLineStart b.cycles
  else 0

theorem Board.Wired.write_cycles {b : Board} (h : b.Wired) (hlimit : b.cycles ≤ cycleLimit)
    (address : UInt16) (value : UInt8) :
    (b.write address value).cycles = min (b.cycles + b.wait address) cycleLimit := by
  by_cases hvideo : address &&& 0x1080 = 0
  · have hstall := (b.tia.write_ends b.cycles b.afterRead address value).stall
    have hwait : b.wait address =
        if Tia.names address .wsync && b.afterRead then b.tia.cyclesToLineStart b.cycles else 0 := by
      simp only [wait, hvideo, true_and]
    rw [(write_of_reachesVideo (h.reachesVideo hvideo) value).cycles, hstall, hwait]
  · have hwait : b.wait address = 0 := if_neg fun hholds ↦ hvideo hholds.1
    have hother : ¬ b.ReachesVideo address := mt (h.reachesVideo_iff address).mp hvideo
    rw [(write_of_not_reachesVideo hother value).cycles, hwait]
    exact (Nat.min_eq_left hlimit).symm

namespace Moment

/-- Processor cycles that an event costs: those announced, or those of a wait for the line. -/
def cost (moment : Moment Board) : Nat :=
  match moment.event with
  | .elapse cycles => cycles
  | .read .. => 0
  | .write address _ => moment.bus.wait address

/-- The counter counts what an event costs, as far as it goes. -/
theorem after_cycles {moment : Moment Board} (h : moment.bus.Wired)
    (hlimit : moment.bus.cycles ≤ Board.cycleLimit) :
    moment.after.cycles = min (moment.bus.cycles + moment.cost) Board.cycleLimit := by
  obtain ⟨b, event⟩ := moment
  cases event with
  | elapse cycles => rfl
  | read address value => exact (b.read_keeps address).2.2.trans (Nat.min_eq_left hlimit).symm
  | write address value => exact h.write_cycles hlimit address value

/-- Below its limit the counter has counted it all. -/
theorem cost_eq_cycles {moment : Moment Board} (h : moment.bus.Wired)
    (hbelow : moment.after.cycles < Board.cycleLimit) :
    moment.bus.cycles + moment.cost < Board.cycleLimit ∧ moment.cost = moment.cycles := by
  have hcounted := cycles_add hbelow
  have hafter := after_cycles h (by omega)
  omega

end Moment

/-- Processor cycles that a run costs. -/
def processorCycles (run : List (Moment Board)) : Nat :=
  (run.map Moment.cost).sum

/-- No period of the cycle counter is too long for it. -/
def PeriodsFit (run : List (Moment Board)) : Prop :=
  ∀ moment ∈ run, moment.bus.cycles + moment.cost < UInt32.size

theorem processorCycles_concat (run : List (Moment Board)) (moment : Moment Board) :
    processorCycles (run ++ [moment]) = processorCycles run + moment.cost := by
  simp [processorCycles]

theorem periodsFit_concat {run : List (Moment Board)} {moment : Moment Board} :
    PeriodsFit (run ++ [moment]) ↔
      PeriodsFit run ∧ moment.bus.cycles + moment.cost < UInt32.size := by
  simp [PeriodsFit, or_imp, forall_and]

/-- As long as the counter does not reach its limit, it tells what a run costs. -/
theorem processorCycles_eq_spent {b : Board} (hwired : b.Wired) {events : List BusEvent}
    (h : Unsaturated (moments b events)) :
    PeriodsFit (moments b events) ∧ processorCycles (moments b events) = spent (moments b events) := by
  have hcost : ∀ moment ∈ moments b events, moment.bus.cycles + moment.cost < Board.cycleLimit ∧
      moment.cost = moment.cycles :=
    fun moment hmem ↦ Moment.cost_eq_cycles (Board.keeps_wired.moments hwired hmem) (h moment hmem)
  refine ⟨fun moment hmem ↦ ?_, ?_⟩
  · have hlimit : Board.cycleLimit < UInt32.size := by decide
    exact (hcost moment hmem).1.trans hlimit
  · exact congrArg List.sum (List.map_congr_left fun moment hmem ↦ (hcost moment hmem).2)

/-- A board after a run, `banked` being what the counter had counted whenever it was restarted. -/
structure KeepsTime (banked : Nat) (run : List (Moment Board)) (b : Board) : Prop where
  wired : b.Wired
  cycles_le : b.cycles ≤ Board.cycleLimit
  cost_eq : PeriodsFit run → banked + b.cycles = processorCycles run

namespace KeepsTime

variable {banked : Nat} {run : List (Moment Board)} {b after : Board}

theorem step (h : KeepsTime banked run b) (event : BusEvent) :
    KeepsTime banked (run ++ [⟨b, event⟩]) (event.apply b) := by
  let moment : Moment Board := ⟨b, event⟩
  change KeepsTime banked (run ++ [moment]) moment.after
  have hafter : moment.after.cycles = min (b.cycles + moment.cost) Board.cycleLimit :=
    Moment.after_cycles h.wired h.cycles_le
  refine ⟨Moment.after_wired h.wired, hafter.trans_le (Nat.min_le_right _ _), ?_⟩
  intro hfits
  obtain ⟨hpast, hmoment⟩ := periodsFit_concat.mp hfits
  have hroom : b.cycles + moment.cost ≤ Board.cycleLimit := Nat.le_of_lt_succ hmoment
  calc
    banked + moment.after.cycles = banked + (b.cycles + moment.cost) := by
      rw [hafter, Nat.min_eq_left hroom]
    _ = processorCycles run + moment.cost := by rw [← Nat.add_assoc, h.cost_eq hpast]
    _ = processorCycles (run ++ [moment]) := (processorCycles_concat run moment).symm

theorem idle (h : KeepsTime banked run b) (hidle : b.Idles after) : KeepsTime banked run after := by
  refine ⟨hidle.wired h.wired, ?_, ?_⟩
  · rw [hidle.cycles]
    exact h.cycles_le
  · rw [hidle.cycles]
    exact h.cost_eq

theorem lasts (banked : Nat) : Board.Lasts (KeepsTime banked) where
  step _ _ event h := h.step event
  idle _ _ _ hidle h := h.idle hidle

/-- The counter restarts. -/
theorem restart (h : KeepsTime banked run b) (hwired : after.Wired) (hcycles : after.cycles = 0) :
    KeepsTime (banked + b.cycles) run after := by
  refine ⟨hwired, ?_, ?_⟩
  · rw [hcycles]
    exact Nat.zero_le _
  · rw [hcycles]
    exact h.cost_eq

end KeepsTime

namespace Machine

/-- What somebody who plays can do about time. -/
inductive Turn where
  | frame
  | reset
  deriving DecidableEq, Repr

/-- The machine after a turn. -/
def takeTurn (m : Machine) : Turn → Machine
  | .frame => m.processFrame.2
  | .reset => m.reset

/-- The moments of a turn. -/
def turnMoments (m : Machine) : Turn → List (Moment Board)
  | .frame => m.frameMoments
  | .reset => m.resetMoments

/-- Cycles on the counter when a turn restarts it without taking note of them. -/
def forgotten (m : Machine) : Turn → Nat
  | .frame => 0
  | .reset => m.board.cycles

/-- The machine after some turns. -/
def afterTurns (m : Machine) : List Turn → Machine
  | [] => m
  | turn :: rest => (m.takeTurn turn).afterTurns rest

/-- The moments of some turns. -/
def turnsMoments (m : Machine) : List Turn → List (Moment Board)
  | [] => []
  | turn :: rest => m.turnMoments turn ++ (m.takeTurn turn).turnsMoments rest

/-- Cycles that some turns do not take note of. -/
def allForgotten (m : Machine) : List Turn → Nat
  | [] => 0
  | turn :: rest => m.forgotten turn + (m.takeTurn turn).allForgotten rest

/-- Processor cycles that the time shown stands for. -/
def emulatedCycles (m : Machine) : Nat :=
  m.elapsedCycles + m.board.cycles

theorem emulatedSeconds_eq (m : Machine) :
    m.emulatedSeconds = m.television.masterClock.seconds (m.emulatedCycles * 3) := rfl

section

variable {m : Machine} {banked : Nat} {past : List (Moment Board)}

theorem openFrame_keepsTime (h : KeepsTime banked past m.board) :
    KeepsTime (banked + m.restarted) past m.openFrame.board := by
  unfold openFrame restarted
  split
  · exact h
  · exact h.restart (h.wired.of_eq rfl rfl rfl) rfl

theorem processFrame_keepsTime (h : KeepsTime banked past m.board) :
    KeepsTime (banked + m.restarted) (past ++ m.frameMoments) m.processFrame.2.board :=
  (processFrame_lasts (KeepsTime.lasts _) (openFrame_keepsTime h)).last

theorem reset_keepsTime (h : KeepsTime banked past m.board) :
    KeepsTime (banked + m.board.cycles) (past ++ m.resetMoments) m.reset.board :=
  (reset_lasts (KeepsTime.lasts _) (h.restart h.wired.reset m.board.reset_cycles)).last

/-- A turn pays into the account what the counter has counted, or forgets it. -/
theorem takeTurn_keepsTime {lost : Nat} (h : KeepsTime (m.elapsedCycles + lost) past m.board)
    (turn : Turn) :
    KeepsTime ((m.takeTurn turn).elapsedCycles + (lost + m.forgotten turn))
      (past ++ m.turnMoments turn) (m.takeTurn turn).board := by
  cases turn with
  | frame =>
    have hpaid : m.elapsedCycles + lost + m.restarted =
        m.processFrame.2.elapsedCycles + (lost + 0) := by
      rw [processFrame_elapsedCycles]
      omega
    have hframe := processFrame_keepsTime h
    rwa [hpaid] at hframe
  | reset =>
    have hreset := reset_keepsTime h
    rwa [Nat.add_assoc] at hreset

theorem afterTurns_keepsTime {lost : Nat} (h : KeepsTime (m.elapsedCycles + lost) past m.board)
    (turns : List Turn) :
    KeepsTime ((m.afterTurns turns).elapsedCycles + (lost + m.allForgotten turns))
      (past ++ m.turnsMoments turns) (m.afterTurns turns).board := by
  induction turns generalizing m lost past with
  | nil =>
    rw [turnsMoments, List.append_nil]
    exact h
  | cons turn rest ih =>
    have hrest := ih (takeTurn_keepsTime h turn)
    rwa [List.append_assoc, Nat.add_assoc] at hrest

end

end Machine

/-- What holds behind one instruction and outlasts the others holds behind a run. -/
theorem Processor.runFrom_keeps_of_step {I : Board → Prop} (h : Bus.Keeps I) {p : Processor Board}
    (hstep : I p.step.2.bus) (done budget : Nat) : I (p.runFrom done (budget + 1)).2.bus := by
  rcases hresult : p.step with ⟨_ | cycles, next⟩
  · rw [hresult] at hstep
    simp only [runFrom, hresult]
    exact hstep
  · rw [hresult] at hstep
    simp only [runFrom, hresult]
    split
    · exact hstep
    · exact runFrom_keeps h hstep (done + 1) budget

namespace Machine

variable {m : Machine}

theorem reset_counts (h : m.board.Wired) : m.reset.board.cycles = 2 := by
  obtain ⟨-, -, -, hunsaturated, hspent⟩ := m.resetMoments_spent
  have hcounted := (reset_along h).last.spent_eq hunsaturated
  rw [List.nil_append] at hcounted
  omega

/-- What holds behind one slice and outlasts the others holds behind all of them. -/
theorem runSlices_keeps_of_slice {I : Board → Prop} (h : Bus.Keeps I)
    (hclear : ∀ b, I b → I { b with stop := false }) {core : Processor Board}
    (hslice : I (runSlice core).2.bus) (budget : Nat) : I (runSlices core (budget + 1)).2.bus := by
  rcases hresult : runSlice core with ⟨_ | done, next⟩
  · rw [hresult] at hslice
    simp only [runSlices, hresult]
    exact hslice
  · rw [hresult] at hslice
    simp only [runSlices, hresult]
    split
    · exact runSlices_keeps h hclear hslice budget
    · exact hslice

/-- A call of the frame pump executes an instruction, and that takes time. -/
theorem processFrame_counts (m : Machine) :
    min (m.openFrame.board.cycles + 1) Board.cycleLimit ≤ m.processFrame.2.board.cycles := by
  let count := min (m.openFrame.board.cycles + 1) Board.cycleLimit
  have hkeeps : Bus.Keeps fun b : Board ↦ count ≤ b.cycles :=
    Board.keeps_le_cycles (Nat.min_le_right _ _)
  have hslice : count ≤ (runSlice m.openFrame.core).2.bus.cycles := by
    let started : Processor Board :=
      { m.openFrame.core with bus := { m.openFrame.core.bus with stop := false } }
    have hinstructions : sliceInstructions = 24999 + 1 := rfl
    rw [runSlice, hinstructions]
    exact Processor.runFrom_keeps_of_step hkeeps started.step_cycles_lt 0 24999
  have hslices : count ≤ (runSlices m.openFrame.core sliceBudget).2.bus.cycles :=
    runSlices_keeps_of_slice hkeeps (fun _ h ↦ h) hslice 9
  unfold processFrame
  dsimp only
  rcases hresult : runSlices m.openFrame.core sliceBudget with ⟨_ | left, core⟩
  · rw [hresult] at hslices
    exact hslices
  · rw [hresult] at hslices
    exact hslices.trans_eq (closeFrame_idles { m.openFrame with core := core } left).cycles.symm

theorem openFrame_cycles (m : Machine) : m.openFrame.board.cycles + m.restarted = m.board.cycles := by
  unfold openFrame restarted
  split
  · rfl
  · exact Nat.zero_add _

/-- Frames do not set the time back. -/
theorem emulatedCycles_le_processFrame (h : m.board.cycles ≤ Board.cycleLimit) :
    m.emulatedCycles ≤ m.processFrame.2.emulatedCycles := by
  have hcounts := m.processFrame_counts
  have hopened := m.openFrame_cycles
  have hpaid := m.processFrame_elapsedCycles
  simp only [emulatedCycles]
  omega

theorem takeTurn_counts (h : m.board.Wired) (turn : Turn) : 0 < (m.takeTurn turn).board.cycles := by
  cases turn with
  | frame =>
    have hcounts := m.processFrame_counts
    have hlimit : 0 < Board.cycleLimit := by decide
    change 0 < m.processFrame.2.board.cycles
    omega
  | reset =>
    have hcounts := reset_counts h
    change 0 < m.reset.board.cycles
    omega

theorem Reachable.takeTurn (h : Reachable m) (turn : Turn) : Reachable (m.takeTurn turn) := by
  cases turn with
  | frame => exact h.processFrame
  | reset => exact h.reset

theorem Reachable.afterTurns (h : Reachable m) (turns : List Turn) : Reachable (m.afterTurns turns) := by
  induction turns generalizing m with
  | nil => exact h
  | cons turn rest ih => exact ih (h.takeTurn turn)

/-- Nothing is forgotten exactly if nobody resets the machine. -/
theorem allForgotten_eq_zero_iff (h : Reachable m) (hcounts : 0 < m.board.cycles) (turns : List Turn) :
    m.allForgotten turns = 0 ↔ Turn.reset ∉ turns := by
  induction turns generalizing m with
  | nil => simp [allForgotten]
  | cons turn rest ih =>
    have hrest := ih (h.takeTurn turn) (takeTurn_counts h.kept.wired turn)
    have hfirst : m.forgotten turn = 0 ↔ Turn.reset ≠ turn := by
      cases turn with
      | frame => simp [forgotten]
      | reset => simpa [forgotten] using hcounts.ne'
    rw [allForgotten, Nat.add_eq_zero_iff, hfirst, hrest, List.mem_cons, not_or]

/-- A session whose last act, if it succeeds, is a change to a machine of some kind. -/
def Session.EndsIn {α : Type} (I : Machine → Prop) (change : Machine → Machine) (session : Session α) :
    Prop :=
  ∀ m : Machine, I m → ∀ value, (session.run m).1 = .ok value →
    ∃ before, I before ∧ (session.run m).2 = change before

namespace Session.EndsIn

variable {α β : Type} {I : Machine → Prop} {Q : α → Prop} {change : Machine → Machine}

theorem modify : Session.EndsIn I change (modifyThe Machine change : Session PUnit) :=
  fun m hm _ _ ↦ ⟨m, hm, rfl⟩

theorem throw (cause : MachineError) :
    Session.EndsIn I change (MonadExcept.throw cause : Session α) :=
  fun _ _ _ heq ↦ absurd heq (by exact nofun)

theorem bind {first : Session α} {next : α → Session β} (hfirst : Session.Ensures I Q first)
    (hnext : ∀ value, Q value → Session.EndsIn I change (next value)) :
    Session.EndsIn I change (first >>= next) := by
  intro m hm result hok
  obtain ⟨hmiddle, hvalue⟩ := hfirst m hm
  have hrun : (first >>= next).run m =
      ExceptT.bindCont next (first.run m).1 (first.run m).2 := rfl
  rw [hrun] at hok ⊢
  rcases hresult : first.run m with ⟨cause | value, middle⟩
  · rw [hresult] at hok
    exact absurd hok (by exact nofun)
  · rw [hresult] at hmiddle hvalue hok
    exact hnext value (hvalue value rfl) middle hmiddle result hok

end Session.EndsIn

/-- The last that an insertion does is to reset the machine and to clear the account. -/
theorem exists_lastReset {m : Machine} (h : Reachable m) {image : ByteArray}
    (hinsert : (m.insertCartridge image).1 = .ok ()) :
    ∃ before, Reachable before ∧
      (m.insertCartridge image).2 = { before.reset with elapsedCycles := 0 } := by
  have hends : Session.EndsIn Reachable (fun before ↦ { before.reset with elapsedCycles := 0 })
      (insertImage image) := by
    unfold insertImage
    split
    · exact .throw _
    · next cartridge hcartridge =>
      obtain ⟨scheme, hscheme⟩ := Cartridge.exists_withScheme hcartridge
      refine .bind (.modify ?_) fun _ _ ↦ .bind Reachable.outlasts.settleTelevision fun _ _ ↦
        .bind Reachable.outlasts.settlePlacement fun _ _ ↦ .modify
      exact fun m hm ↦ ((hm.note _).insert hscheme).reset
  exact hends m h () hinsert

/-! ## A program that gets nowhere -/

end Machine

/-- An image that holds nothing but an opcode that the processor does not know. -/
def unknownOpcodes (_ : Nat) : UInt8 :=
  0x12

/-- The processor gives up as soon as it has fetched it. -/
theorem Processor.step_of_unknownOpcodes {p : Processor Board} {pc : UInt16}
    (h : p.bus.Shows unknownOpcodes) (hpc : p.registers.pc = pc) (hwindow : pc &&& 0x1000 ≠ 0) :
    (∃ fault, p.step = (.error fault, p.fetchOpcode)) ∧
      p.transcript = [.elapse 1, .read pc 0x12] := by
  obtain ⟨hlatch, -, -⟩ := fetch_of_shows h hpc hwindow
  have hunknown : (Instruction.decode p.fetch.latch).mnemonic.operation = none := by
    rw [hlatch, unknownOpcodes]
    decide
  have hstep : p.step = (.error (.unknownOpcode (p.fetchOpcode.registers.pc - 1) p.fetch.latch),
      p.fetchOpcode) := by
    rw [step]
    dsimp only
    rw [show (Instruction.decode p.fetchOpcode.opcode).mnemonic.operation = none from hunknown]
    rfl
  have hrecord : p.record.step.2 = p.record.fetchOpcode := by
    rw [step]
    dsimp only
    rw [show (Instruction.decode p.record.fetchOpcode.opcode).mnemonic.operation = none from hunknown]
  have hevents : p.record.fetchOpcode.bus.events = [.elapse 1, .read p.registers.pc p.fetch.latch] :=
    p.record.peek_events p.registers.pc
  refine ⟨⟨_, hstep⟩, ?_⟩
  rw [transcript, hrecord, hevents, hlatch, hpc]
  rfl

namespace Machine

theorem Session.run_bind_of_ok {α β : Type} {first : Session α} {next : α → Session β}
    {m middle : Machine} {value : α} (h : first.run m = (.ok value, middle)) :
    (first >>= next).run m = (next value).run middle := by
  have hrun : (first >>= next).run m =
      ExceptT.bindCont next (first.run m).1 (first.run m).2 := rfl
  rw [hrun, h]
  rfl

theorem Session.run_modify_bind {β : Type} (change : Machine → Machine) (next : PUnit → Session β)
    (m : Machine) :
    ((modifyThe Machine change : Session PUnit) >>= next).run m = (next ⟨⟩).run (change m) := rfl

theorem settleTelevision_of_settled {m : Machine} (h : m.config.television.isNone = false) :
    settleTelevision.run m = (.ok (), m) := by
  have hget : (getThe Machine : Session Machine).run m = (.ok m, m) := rfl
  rw [settleTelevision, Session.run_bind_of_ok hget, h]
  rfl

theorem settlePlacement_of_settled {m : Machine} (h : m.config.height.isNone = false) :
    settlePlacement.run m = (.ok (), m) := by
  have hget : (getThe Machine : Session Machine).run m = (.ok m, m) := rfl
  rw [settlePlacement, Session.run_bind_of_ok hget, h]
  rfl

/-- If everything is laid down, nothing has to be found out. -/
theorem insertCartridge_of_settled {m : Machine} {image : ByteArray} {cartridge : Cartridge}
    (hcartridge : Cartridge.ofImage image = .ok cartridge)
    (htelevision : m.config.television.isNone = false) (hheight : m.config.height.isNone = false) :
    ∃ event, m.insertCartridge image = (.ok (),
      { ((m.note event).mapBoard fun board ↦ (board.insert cartridge).2).reset.reset with
        elapsedCycles := 0 }) := by
  let plugged := (m.note (.cartridgeInserted image.size cartridge.scheme.name)).mapBoard
    fun board ↦ (board.insert cartridge).2
  have htelevision : plugged.reset.config.television.isNone = false := htelevision
  have hheight : plugged.reset.config.height.isNone = false := hheight
  refine ⟨.cartridgeInserted image.size cartridge.scheme.name, ?_⟩
  rw [insertCartridge, insertImage, hcartridge]
  dsimp only
  rw [Session.run_modify_bind]
  change (settleTelevision >>= _).run plugged.reset = _
  rw [Session.run_bind_of_ok (settleTelevision_of_settled htelevision),
    Session.run_bind_of_ok (settlePlacement_of_settled hheight)]
  rfl

/-- In the middle of a frame, with so many cycles on the counter and on the account, the machine is about to
fetch an opcode that the processor does not know. -/
structure Falters (m : Machine) (pc : UInt16) (count account : Nat) : Prop where
  shows : m.board.Shows unknownOpcodes
  pc : m.core.registers.pc = pc
  drawing : m.board.tia.frame.drawing = true
  cycles : m.board.cycles = count
  elapsedCycles : m.elapsedCycles = account

/-- A call of the frame pump fails after one cycle. -/
theorem processFrame_of_unknownOpcodes {m : Machine} {pc : UInt16} {count account : Nat}
    (h : m.board.Shows unknownOpcodes) (hpc : m.core.registers.pc = pc) (hwindow : pc &&& 0x1000 ≠ 0)
    (hcount : m.openFrame.board.cycles = count) (hroom : count + 1 < Board.cycleLimit)
    (haccount : m.elapsedCycles + m.restarted = account) :
    PeriodsFit m.frameMoments ∧ m.processFrame.2.Falters (pc + 1) (count + 1) account := by
  let p : Processor Board := { m.openFrame.core with bus := { m.openFrame.board with stop := false } }
  obtain ⟨hregisters, hkept⟩ := m.openFrame_keepsSetup
  have hshows : p.bus.Shows unknownOpcodes :=
    h.keepsSetup (hkept.board.trans ⟨rfl, rfl, rfl, rfl, rfl, rfl⟩)
  have hat : p.registers.pc = pc := (congrArg Registers.pc hregisters).trans hpc
  obtain ⟨⟨fault, hstep⟩, htranscript⟩ := Processor.step_of_unknownOpcodes hshows hat hwindow
  obtain ⟨-, hnext, hfetched⟩ := Processor.fetch_of_shows hshows hat hwindow
  have hinstructions : sliceInstructions = 24999 + 1 := rfl
  have hbudget : sliceBudget = 9 + 1 := rfl
  have hslice : runSlice m.openFrame.core = (.error fault, p.fetchOpcode) := by
    change p.runFrom 0 sliceInstructions = _
    rw [hinstructions]
    simp only [Processor.runFrom, hstep]
  have hmoments : m.frameMoments = moments p.bus [.elapse 1, .read pc 0x12] := by
    rw [frameMoments, hbudget, sliceMoments, hslice]
    change p.runMoments sliceInstructions ++ [] = _
    rw [hinstructions, Processor.runMoments, hstep, htranscript, List.append_nil, List.append_nil]
  have hframe : m.processFrame.2 = { m.openFrame with core := p.fetchOpcode } := by
    have hslices : runSlices m.openFrame.core sliceBudget = (.error fault, p.fetchOpcode) := by
      rw [hbudget, runSlices, hslice]
    rw [processFrame, hslices]
  have hboard : m.processFrame.2.board = p.fetchOpcode.bus := congrArg board hframe
  have hbus : p.fetchOpcode.bus = replay p.bus [.elapse 1, .read pc 0x12] := by
    rw [← htranscript, ← Processor.step_bus, hstep]
  have hreads : ∀ event ∈ [BusEvent.elapse 1, .read pc 0x12], event.isWrite = false := by
    simp [BusEvent.isWrite]
  have hstart : p.bus.cycles = count := hcount
  obtain ⟨hunsaturated, -, hcycles⟩ := moments_of_reads (b := p.bus) hreads (hstart ▸ hroom)
  refine ⟨hmoments ▸ (processorCycles_eq_spent hshows.wired hunsaturated).1, ?_, ?_, ?_, ?_, ?_⟩
  · rw [hboard]
    exact hshows.coasts hfetched
  · rw [hframe]
    exact hnext
  · rw [hboard]
    exact hfetched.drawing.trans m.openFrame_drawing
  · rw [hboard, hbus, hcycles, hstart]
    rfl
  · rw [processFrame_elapsedCycles, haccount]

/-- The next call carries on with the frame. -/
theorem Falters.processFrame {m : Machine} {pc : UInt16} {count account : Nat}
    (h : m.Falters pc count account) (hwindow : pc &&& 0x1000 ≠ 0) (hroom : count + 1 < Board.cycleLimit) :
    PeriodsFit m.frameMoments ∧ m.processFrame.2.Falters (pc + 1) (count + 1) account := by
  refine processFrame_of_unknownOpcodes h.shows h.pc hwindow ?_ hroom ?_
  · rw [openFrame, h.drawing, if_pos rfl]
    exact h.cycles
  · rw [restarted, h.drawing, if_pos rfl]
    exact h.elapsedCycles

theorem resetMoments_fit {m : Machine} (h : m.board.Wired) : PeriodsFit m.resetMoments := by
  obtain ⟨-, -, -, hunsaturated, -⟩ := m.resetMoments_spent
  exact (processorCycles_eq_spent h.reset hunsaturated).1

/-- Three calls of the frame pump and a reset. -/
theorem turns_of_unknownOpcodes {m : Machine} (h : m.board.Shows unknownOpcodes)
    (hpc : m.core.registers.pc = 0x1212) (hbetween : m.board.tia.frame.drawing = false)
    (hcycles : m.board.cycles = 2) (haccount : m.elapsedCycles = 0) :
    PeriodsFit (m.turnsMoments [.frame, .frame, .frame, .reset]) ∧
      m.allForgotten [.frame, .frame, .frame, .reset] = 3 ∧
      (m.afterTurns [.frame, .frame, .frame]).emulatedCycles = 5 ∧
      (m.afterTurns [.frame, .frame, .frame, .reset]).emulatedCycles = 4 := by
  have hlimit : 4 < Board.cycleLimit := by decide
  have hopened : m.openFrame.board.cycles = 0 := by
    rw [openFrame, hbetween, if_neg Bool.false_ne_true]
    rfl
  have hpaid : m.elapsedCycles + m.restarted = 2 := by
    rw [restarted, hbetween, if_neg Bool.false_ne_true, haccount, hcycles]
  obtain ⟨hfirst, hone⟩ :=
    processFrame_of_unknownOpcodes h hpc (by decide) hopened (by omega) hpaid
  obtain ⟨hsecond, htwo⟩ := hone.processFrame (by decide) (by omega)
  obtain ⟨hthird, hthree⟩ := htwo.processFrame (by decide) (by omega)
  let third := m.processFrame.2.processFrame.2.processFrame.2
  have hcounted : third.board.cycles = 3 := hthree.cycles
  have hbanked : third.elapsedCycles = 2 := hthree.elapsedCycles
  have hlast := resetMoments_fit hthree.shows.wired
  have hcounts : third.reset.board.cycles = 2 := reset_counts hthree.shows.wired
  refine ⟨?_, ?_, ?_, ?_⟩
  · intro moment hmem
    simp only [turnsMoments, turnMoments, List.mem_append, List.append_nil] at hmem
    rcases hmem with hmem | hmem | hmem | hmem
    · exact hfirst moment hmem
    · exact hsecond moment hmem
    · exact hthird moment hmem
    · exact hlast moment hmem
  · change 0 + (0 + (0 + (third.board.cycles + 0))) = 3
    omega
  · change third.elapsedCycles + third.board.cycles = 5
    omega
  · change third.elapsedCycles + third.reset.board.cycles = 4
    omega

theorem ofImage_of_twoK {image : ByteArray} (h : image.size = 2048) :
    Cartridge.ofImage image = Cartridge.withScheme image .twoK := by
  have hscheme : BankScheme.detect image = .ok .twoK := if_pos h
  simp only [Cartridge.ofImage, hscheme, bind, Except.bind]

/-- A console with some image, whose format and height are laid down. -/
theorem insertCartridge_shows {m : Machine} (h : m.board.Wired)
    (htelevision : m.config.television.isNone = false) (hheight : m.config.height.isNone = false)
    (bytes : Nat → UInt8) :
    let inserted := m.insertCartridge (Cartridge.imageOf bytes)
    inserted.1 = .ok () ∧ inserted.2.board.Shows bytes ∧
      inserted.2.core.registers.pc = wordOf (bytes 0x7FC) (bytes 0x7FD) ∧
      inserted.2.board.tia.frame.drawing = false ∧ inserted.2.board.cycles = 2 ∧
      inserted.2.elapsedCycles = 0 := by
  have hcartridge : Cartridge.ofImage (Cartridge.imageOf bytes) = .ok (.ofBytes bytes) :=
    (ofImage_of_twoK (Cartridge.size_imageOf bytes)).trans (Cartridge.withScheme_imageOf bytes)
  obtain ⟨event, hinserted⟩ := insertCartridge_of_settled hcartridge htelevision hheight
  have hwired : (m.note event).board.Wired := (Board.Idles.note m.board event).wired h
  let plugged := (m.note event).mapBoard fun board ↦ (board.insert (.ofBytes bytes)).2
  have hplugged : plugged.reset.board.Shows bytes :=
    (reset_of_shows (m := plugged) (Board.Shows.insert hwired bytes)).1
  obtain ⟨hshows, hpc, hbetween⟩ := reset_of_shows hplugged
  have hcounts := reset_counts hplugged.wired
  have hboard : (m.insertCartridge (Cartridge.imageOf bytes)).2.board = plugged.reset.reset.board := by
    rw [hinserted]
    rfl
  dsimp only
  rw [hboard, hinserted]
  exact ⟨rfl, hshows, hpc, hbetween, hcounts, rfl⟩

/-! ## All sessions -/

section

variable {before : Machine}

/-- After a reset the account is right, if it was clear by then. -/
theorem reset_opens (h : before.board.Wired) : KeepsTime 0 before.resetMoments before.reset.board := by
  have hstart : KeepsTime 0 [] before.board.reset := by
    refine ⟨h.reset, ?_, fun _ ↦ ?_⟩
    · rw [Board.reset_cycles]
      exact Nat.zero_le _
    · rw [Board.reset_cycles]
      rfl
  exact (reset_lasts (KeepsTime.lasts 0) hstart).last

/-- What the time shown amounts to after some turns. -/
theorem emulatedCycles_afterTurns (h : before.board.Wired) (turns : List Turn) :
    let first := { before.reset with elapsedCycles := 0 }
    let last := first.afterTurns turns
    last.board.cycles ≤ Board.cycleLimit ∧
      (PeriodsFit (before.resetMoments ++ first.turnsMoments turns) →
        last.emulatedCycles + first.allForgotten turns =
          processorCycles (before.resetMoments ++ first.turnsMoments turns)) := by
  intro first last
  have hfirst : KeepsTime (first.elapsedCycles + 0) before.resetMoments first.board := reset_opens h
  have hlast : KeepsTime (last.elapsedCycles + (0 + first.allForgotten turns))
      (before.resetMoments ++ first.turnsMoments turns) last.board := afterTurns_keepsTime hfirst turns
  refine ⟨hlast.cycles_le, fun hfits ↦ ?_⟩
  rw [← hlast.cost_eq hfits, emulatedCycles]
  omega

end

/-- The time shown is what has been spent since a cartridge was inserted, less what resets have forgotten. -/
theorem insertCartridge_emulatedCycles {m : Machine} (h : Reachable m) {image : ByteArray}
    (hinsert : (m.insertCartridge image).1 = .ok ()) :
    let inserted := (m.insertCartridge image).2
    ∃ before, Reachable before ∧ inserted = { before.reset with elapsedCycles := 0 } ∧
      ∀ turns : List Turn,
        let run := before.resetMoments ++ inserted.turnsMoments turns
        let last := inserted.afterTurns turns
        (PeriodsFit run →
          last.emulatedCycles + inserted.allForgotten turns = processorCycles run ∧
            (last.emulatedCycles = processorCycles run ↔ Turn.reset ∉ turns)) ∧
        last.emulatedCycles ≤ last.processFrame.2.emulatedCycles ∧
        last.reset.emulatedCycles + last.board.cycles = last.emulatedCycles + 2 := by
  intro inserted
  obtain ⟨before, hbefore, hinserted⟩ : ∃ before, Reachable before ∧
      inserted = { before.reset with elapsedCycles := 0 } := exists_lastReset h hinsert
  have hreachable : Reachable inserted := h.insertCartridge image
  refine ⟨before, hbefore, hinserted, fun turns ↦ ?_⟩
  intro run last
  have hlast := (hreachable.afterTurns turns).kept.wired
  have hcounts : 0 < inserted.board.cycles := by
    have htwo : inserted.board.cycles = 2 := by
      rw [hinserted]
      exact reset_counts hbefore.kept.wired
    omega
  obtain ⟨hlimit, hlaw⟩ := emulatedCycles_afterTurns hbefore.kept.wired turns
  rw [← hinserted] at hlimit hlaw
  refine ⟨fun hfits ↦ ?_, emulatedCycles_le_processFrame hlimit, ?_⟩
  · have htotal : last.emulatedCycles + inserted.allForgotten turns = processorCycles run := hlaw hfits
    refine ⟨htotal, ?_⟩
    rw [← allForgotten_eq_zero_iff hreachable hcounts turns, ← htotal]
    omega
  · have htwo : last.reset.board.cycles = 2 := reset_counts hlast
    have hreset : last.reset.emulatedCycles = last.elapsedCycles + last.reset.board.cycles := rfl
    have hbefore : last.emulatedCycles = last.elapsedCycles + last.board.cycles := rfl
    omega

/-- A console with a program that gets nowhere shows two cycles of the vector and one of each frame, less the
three that it forgets when it is reset. -/
theorem insertCartridge_emulatedCycles_of_unknownOpcodes :
    let m : Machine := off { television := some .ntsc, height := some 210 } (Riot.new 0) {}
    let inserted := (m.insertCartridge (Cartridge.imageOf unknownOpcodes)).2
    (m.insertCartridge (Cartridge.imageOf unknownOpcodes)).1 = .ok () ∧
      ∃ before : Machine, inserted = { before.reset with elapsedCycles := 0 } ∧
        let run := before.resetMoments ++ inserted.turnsMoments [.frame, .frame, .frame, .reset]
        PeriodsFit run ∧
          (inserted.afterTurns [.frame, .frame, .frame, .reset]).emulatedCycles + 3 =
            processorCycles run := by
  intro m inserted
  have hreachable : Reachable m := .off _ _ _
  obtain ⟨hinsert, hshows, hpc, hbetween, hcycles, haccount⟩ :=
    insertCartridge_shows (m := m) hreachable.kept.wired rfl rfl unknownOpcodes
  refine ⟨hinsert, ?_⟩
  obtain ⟨before, hbefore, hinserted, hlaw⟩ := insertCartridge_emulatedCycles hreachable hinsert
  obtain ⟨hfits, hforgotten, -, -⟩ :=
    turns_of_unknownOpcodes hshows (hpc.trans (by decide)) hbetween hcycles haccount
  have hrun := List.forall_mem_append.mpr ⟨resetMoments_fit hbefore.kept.wired, hfits⟩
  obtain ⟨htotal, -⟩ := (hlaw [.frame, .frame, .frame, .reset]).1 hrun
  rw [hforgotten] at htotal
  exact ⟨before, hinserted, hrun, htotal⟩

/-- After three frames the console shows five cycles; then it is reset, which takes two, and it shows four. -/
theorem emulatedCycles_back_after_reset :
    let m : Machine := off { television := some .ntsc, height := some 210 } (Riot.new 0) {}
    let inserted := (m.insertCartridge (Cartridge.imageOf unknownOpcodes)).2
    (m.insertCartridge (Cartridge.imageOf unknownOpcodes)).1 = .ok () ∧
      ∃ before : Machine, inserted = { before.reset with elapsedCycles := 0 } ∧
        let run := before.resetMoments ++ inserted.turnsMoments [.frame, .frame, .frame, .reset]
        PeriodsFit run ∧ processorCycles run = 7 ∧
          (inserted.afterTurns [.frame, .frame, .frame]).emulatedCycles = 5 ∧
          (inserted.afterTurns [.frame, .frame, .frame, .reset]).emulatedCycles = 4 := by
  intro m inserted
  have hreachable : Reachable m := .off _ _ _
  obtain ⟨hinsert, hshows, hpc, hbetween, hcycles, haccount⟩ :=
    insertCartridge_shows (m := m) hreachable.kept.wired rfl rfl unknownOpcodes
  obtain ⟨before, hbefore, hinserted⟩ := exists_lastReset hreachable hinsert
  obtain ⟨hfits, hforgotten, hlast, hreset⟩ :=
    turns_of_unknownOpcodes hshows (hpc.trans (by decide)) hbetween hcycles haccount
  have hrun := List.forall_mem_append.mpr ⟨resetMoments_fit hbefore.kept.wired, hfits⟩
  obtain ⟨-, hlaw⟩ := emulatedCycles_afterTurns hbefore.kept.wired [.frame, .frame, .frame, .reset]
  rw [← hinserted] at hlaw
  have htotal := hlaw hrun
  rw [hforgotten, hreset] at htotal
  exact ⟨hinsert, before, hinserted, hrun, htotal.symm, hlast, hreset⟩

end Machine

end Vcs
