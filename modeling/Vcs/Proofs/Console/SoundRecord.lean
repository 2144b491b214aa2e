import Vcs.Proofs.Console.EmulatedTime
import Vcs.Proofs.Console.PowerCycle

/-!
# The Record of Sounds

A write to a sound register goes by the page table, past the cartridge if need be, to the video chip, and from
there back through the board into the log.  There it gets a frame, which the log counts, and a cycle, which the
board counts.  Main statement: whenever something is taken out of a log, all of it put together is the score of
the run.  That has every write of the processor to one of the six registers, at any of its addresses and with any
cartridge, in the order of the program, once and with its whole value.  Time never goes back in it, although the
cycle counter restarts with every frame, because the log counts a frame whenever that happens.  A frame that is
carried on after the budget has run out is not counted again.  What was in the log before comes out first and is
no part of the score; a reset leaves nothing there.
-/

namespace Vcs

/-- Register and value of a write to a sound register, at any of its addresses. -/
def BusEvent.soundWrite? : BusEvent → Option (UInt8 × UInt8)
  | write address value =>
    let register := address.toUInt8 &&& 0x3F
    if address &&& 0x1080 = 0 ∧ 0x15 ≤ register ∧ register ≤ 0x1A then some (register, value) else none
  | elapse _ | read .. => none

namespace Tia

theorem Register.map_address_ofAddress? (address : UInt8) :
    (ofAddress? address).map Register.address =
      if (address &&& 0x3F).toNat < 45 then some (address &&& 0x3F).toNat else none :=
  forall_byte (p := fun address ↦ (ofAddress? address).map Register.address =
    if (address &&& 0x3F).toNat < 45 then some (address &&& 0x3F).toNat else none) (by decide +kernel) address

theorem actOn_sound (s : Tia) (register : Register) (previous value : UInt8) (clock : Int) (cycles : Nat)
    (afterRead : Bool) (response : Response) :
    (s.actOn register previous value clock cycles afterRead response).2.sound =
      if 0x15 ≤ register.address ∧ register.address ≤ 0x1A then some (UInt8.ofNat register.address, value)
      else response.sound := by
  cases register with
  | vsync | wsync | hmm0 =>
    simp only [actOn]
    split <;> rfl
  | _ => rfl

/-- The video chip passes on what is written to the sound registers. -/
theorem write_sound (s : Tia) (cycles : Nat) (afterRead : Bool) (address : UInt16) (value : UInt8) :
    (s.write cycles afterRead address value).2.sound =
      let register := address.toUInt8 &&& 0x3F
      if 0x15 ≤ register ∧ register ≤ 0x1A then some (register, value) else none := by
  have hsilent (t : Tia) (clock : Int) : (t.enforceCeiling clock).2.sound = none := by
    unfold enforceCeiling
    dsimp only
    split <;> rfl
  have hplace := Register.map_address_ofAddress? address.toUInt8
  dsimp only
  simp only [UInt8.le_iff_toNat_le]
  rcases hregister : Register.ofAddress? address.toUInt8 with _ | register
  · rw [hregister] at hplace
    have hbeyond : ¬ (address.toUInt8 &&& 0x3F).toNat < 45 := by
      intro hbelow
      rw [if_pos hbelow] at hplace
      cases hplace
    have hfirst : (0x15 : UInt8).toNat = 21 := rfl
    have hlast : (0x1A : UInt8).toNat = 26 := rfl
    rw [if_neg (by omega)]
    simp only [write, hregister, hsilent]
  · rw [hregister] at hplace
    have haddress : register.address = (address.toUInt8 &&& 0x3F).toNat := by
      split at hplace
      · exact Option.some.inj hplace
      · cases hplace
    simp only [write, hregister, actOn_sound, hsilent, haddress, UInt8.ofNat_toNat]
    rfl

end Tia

namespace Board

/-- The log once it has been told of a write, if it was one to a sound register. -/
def logging (b : Board) : Option (UInt8 × UInt8) → Option SoundLog
  | none => b.sound
  | some (register, value) => b.sound.map (·.record register value b.cycles)

theorem respond_sound (b : Board) (response : Tia.Response) :
    (b.respond response).sound = b.logging response.sound := by
  rcases hsound : response.sound with _ | ⟨register, value⟩ <;>
    simp only [respond, hsound] <;> rfl

/-- The log is told of writes to the sound registers and of nothing else, whatever cartridge is inserted. -/
theorem Wired.apply_sound {b : Board} (h : b.Wired) (event : BusEvent) :
    (event.apply b).sound = b.logging event.soundWrite? := by
  cases event with
  | elapse cycles => rfl
  | read address value => exact b.read_sound address
  | write address value =>
    change (b.write address value).sound = _
    by_cases hvideo : address &&& 0x1080 = 0
    · rw [(write_of_reachesVideo (h.reachesVideo hvideo) value).sound, respond_sound, Tia.write_sound]
      simp only [BusEvent.soundWrite?, hvideo, true_and]
    · have hother : ¬ b.ReachesVideo address := mt (h.reachesVideo_iff address).mp hvideo
      rw [(write_of_not_reachesVideo hother value).sound]
      simp only [BusEvent.soundWrite?, hvideo, false_and, if_false]
      rfl

end Board

namespace SoundWrite

/-- Not later than a cycle of a frame. -/
def By (entry : SoundWrite) (frame cycle : Nat) : Prop :=
  entry.frame < frame ∨ entry.frame = frame ∧ entry.cycle ≤ cycle

/-- Frame by frame, and within a frame cycle by cycle. -/
def NoLater (first second : SoundWrite) : Prop :=
  first.By second.frame second.cycle

theorem By.mono {entry : SoundWrite} {frame cycle later : Nat} (h : entry.By frame cycle)
    (hlater : cycle ≤ later) : entry.By frame later :=
  h.imp id fun ⟨hframe, hcycle⟩ ↦ ⟨hframe, hcycle.trans hlater⟩

theorem By.next {entry : SoundWrite} {frame cycle : Nat} (h : entry.By frame cycle) (later : Nat) :
    entry.By (frame + 1) later := by
  unfold By at *
  omega

end SoundWrite

/-- What a run writes to the sound registers, as entries of one frame. -/
def heard (frame : Nat) (run : List (Moment Board)) : List SoundWrite :=
  run.filterMap fun moment ↦ moment.event.soundWrite?.map fun (register, value) ↦
    { frame := frame, cycle := moment.bus.cycles, register := register, value := value }

theorem heard_append (frame : Nat) (first second : List (Moment Board)) :
    heard frame (first ++ second) = heard frame first ++ heard frame second :=
  List.filterMap_append

theorem map_heard (frame : Nat) (run : List (Moment Board)) :
    (heard frame run).map (fun entry ↦ (entry.register, entry.value)) =
      run.filterMap fun moment ↦ moment.event.soundWrite? := by
  simp only [heard, List.map_filterMap, Option.map_map]
  exact congrArg (List.filterMap · run) (funext fun moment ↦ Option.map_id_apply)

/-- A board with a log that held some entries before.  Some have been `taken` since, and these are new. -/
structure Records (before taken entries : List SoundWrite) (frame : Nat) (b : Board) : Prop where
  wired : b.Wired
  cycles_le : b.cycles ≤ Board.cycleLimit
  log : ∃ log, b.sound = some log ∧ log.frame = frame ∧ taken ++ log.writes.toList = before ++ entries
  ordered : entries.Pairwise SoundWrite.NoLater
  past : ∀ entry ∈ entries, entry.By frame b.cycles

namespace Records

variable {before taken entries : List SoundWrite} {frame : Nat} {b after : Board}

theorem step (h : Records before taken entries frame b) (event : BusEvent) :
    Records before taken (entries ++ heard frame [⟨b, event⟩]) frame (event.apply b) := by
  let moment : Moment Board := ⟨b, event⟩
  obtain ⟨log, hlog, hframe, hwrites⟩ := h.log
  have hafter : moment.after.cycles = min (b.cycles + moment.cost) Board.cycleLimit :=
    Moment.after_cycles h.wired h.cycles_le
  have hlater : b.cycles ≤ moment.after.cycles := by
    have hlimit := h.cycles_le
    omega
  have hsound : moment.after.sound = b.logging event.soundWrite? := h.wired.apply_sound event
  change Records before taken (entries ++ heard frame [moment]) frame moment.after
  rcases hwrite : event.soundWrite? with _ | ⟨register, value⟩
  · have hsilent : heard frame [moment] = [] := by simp [heard, moment, hwrite]
    rw [hwrite] at hsound
    rw [hsilent, List.append_nil]
    exact ⟨Moment.after_wired h.wired, by omega, ⟨log, hsound.trans hlog, hframe, hwrites⟩, h.ordered,
      fun entry hentry ↦ (h.past entry hentry).mono hlater⟩
  · let entry : SoundWrite := ⟨frame, b.cycles, register, value⟩
    have hheard : heard frame [moment] = [entry] := by simp [heard, moment, entry, hwrite]
    have hrecorded : moment.after.sound = some (log.record register value b.cycles) := by
      rw [hsound, hwrite, Board.logging, hlog, Option.map_some]
    rw [hheard]
    refine ⟨Moment.after_wired h.wired, by omega, ⟨_, hrecorded, hframe, ?_⟩, ?_, ?_⟩
    · rw [← List.append_assoc, ← hwrites]
      simp [SoundLog.record, entry, hframe]
    · exact List.pairwise_append.mpr ⟨h.ordered, List.pairwise_singleton _ _,
        fun first hfirst second hsecond ↦ List.mem_singleton.mp hsecond ▸ h.past first hfirst⟩
    · intro other hother
      rcases List.mem_append.mp hother with hold | hnew
      · exact (h.past other hold).mono hlater
      · obtain rfl := List.mem_singleton.mp hnew
        exact .inr ⟨rfl, hlater⟩

theorem idle (h : Records before taken entries frame b) (hidle : b.Idles after) :
    Records before taken entries frame after := by
  obtain ⟨hwired, hlimit, hlog, hordered, hpast⟩ := h
  rw [← hidle.cycles] at hlimit hpast
  rw [← hidle.sound] at hlog
  exact ⟨hidle.wired hwired, hlimit, hlog, hordered, hpast⟩

theorem lasts (before taken entries : List SoundWrite) (frame : Nat) :
    Board.Lasts fun past b ↦ Records before taken (entries ++ heard frame past) frame b where
  step past b event h := by
    rw [heard_append, ← List.append_assoc]
    exact h.step event
  idle _ _ _ hidle h := h.idle hidle

/-- The cycle counter restarts. -/
theorem restart (h : Records before taken entries frame b) (hwired : after.Wired) (hcycles : after.cycles = 0)
    (hsound : after.sound = b.sound.map SoundLog.nextFrame) :
    Records before taken entries (frame + 1) after := by
  obtain ⟨log, hlog, hframe, hwrites⟩ := h.log
  refine ⟨hwired, ?_, ⟨log.nextFrame, ?_, congrArg (· + 1) hframe, hwrites⟩, h.ordered, ?_⟩
  · rw [hcycles]
    exact Nat.zero_le _
  · rw [hsound, hlog, Option.map_some]
  · exact fun entry hentry ↦ (h.past entry hentry).next _

end Records

/-- What happens to a machine that somebody listens to. -/
inductive SoundStep where
  | act (action : Machine.Action)
  /-- Everything recorded so far is taken out of the log. -/
  | drain

namespace Machine

/-- Frames that a call of the frame pump begins. -/
def begins (m : Machine) : Nat :=
  if m.board.tia.frame.drawing then 0 else 1

/-- The machine after a step. -/
def takeStep (m : Machine) : SoundStep → Machine
  | .act action => (m.act action).2
  | .drain => m.mapBoard fun board ↦ { board with sound := board.sound.map fun log ↦ log.drain.2 }

/-- What a step takes out of the log. -/
def drained (m : Machine) : SoundStep → List SoundWrite
  | .act _ => []
  | .drain => (m.board.sound.map fun log ↦ log.drain.1.toList).getD []

/-- The moments of a step. -/
def stepMoments (m : Machine) : SoundStep → List (Moment Board)
  | .act .frame => m.frameMoments
  | .act (.setSwitch ..) | .act (.plug ..) | .drain => []

/-- Frames that a step begins. -/
def stepBegins (m : Machine) : SoundStep → Nat
  | .act .frame => m.begins
  | .act (.setSwitch ..) | .act (.plug ..) | .drain => 0

/-- The machine after some steps. -/
def afterSteps (m : Machine) : List SoundStep → Machine
  | [] => m
  | step :: rest => (m.takeStep step).afterSteps rest

/-- Everything that some steps take out of the log. -/
def allDrained (m : Machine) : List SoundStep → List SoundWrite
  | [] => []
  | step :: rest => m.drained step ++ (m.takeStep step).allDrained rest

/-- The moments of some steps. -/
def stepsMoments (m : Machine) : List SoundStep → List (Moment Board)
  | [] => []
  | step :: rest => m.stepMoments step ++ (m.takeStep step).stepsMoments rest

/-- Frames that some steps begin. -/
def framesBegun (m : Machine) : List SoundStep → Nat
  | [] => 0
  | step :: rest => m.stepBegins step + (m.takeStep step).framesBegun rest

/-- What some steps write to the sound registers, `frame` being the frame they start in. -/
def score (m : Machine) (frame : Nat) : List SoundStep → List SoundWrite
  | [] => []
  | step :: rest =>
    let now := frame + m.stepBegins step
    heard now (m.stepMoments step) ++ (m.takeStep step).score now rest

theorem map_score (m : Machine) (frame : Nat) (steps : List SoundStep) :
    (m.score frame steps).map (fun entry ↦ (entry.register, entry.value)) =
      (m.stepsMoments steps).filterMap fun moment ↦ moment.event.soundWrite? := by
  induction steps generalizing m frame with
  | nil => rfl
  | cons step rest ih => simp only [score, stepsMoments, List.map_append, List.filterMap_append, map_heard, ih]

theorem allDrained_concat (m : Machine) (steps : List SoundStep) (step : SoundStep) :
    m.allDrained (steps ++ [step]) = m.allDrained steps ++ (m.afterSteps steps).drained step := by
  induction steps generalizing m with
  | nil => exact List.append_nil _
  | cons first rest ih => simp only [List.cons_append, allDrained, afterSteps, ih, List.append_assoc]

section

variable {m : Machine} {before taken entries : List SoundWrite} {frame : Nat}

theorem openFrame_records (h : Records before taken entries frame m.board) :
    Records before taken entries (frame + m.begins) m.openFrame.board := by
  unfold openFrame begins
  split
  · exact h
  · exact h.restart (h.wired.of_eq rfl rfl rfl) rfl rfl

theorem processFrame_records (h : Records before taken entries frame m.board) :
    Records before taken (entries ++ heard (frame + m.begins) m.frameMoments) (frame + m.begins)
      m.processFrame.2.board := by
  have hopened : Records before taken (entries ++ heard (frame + m.begins) []) (frame + m.begins)
      m.openFrame.board := by
    rw [heard, List.filterMap_nil, List.append_nil]
    exact openFrame_records h
  have hframe := processFrame_lasts (Records.lasts _ _ _ _) hopened
  exact hframe.last

/-- A step adds what it plays and takes what it drains. -/
theorem takeStep_records (h : Records before taken entries frame m.board) (step : SoundStep) :
    Records before (taken ++ m.drained step)
      (entries ++ heard (frame + m.stepBegins step) (m.stepMoments step)) (frame + m.stepBegins step)
      (m.takeStep step).board := by
  cases step with
  | act action =>
    rw [drained, List.append_nil]
    cases action with
    | frame => exact processFrame_records h
    | setSwitch switch down =>
      rw [stepMoments, heard, List.filterMap_nil, List.append_nil]
      exact ⟨h.wired.of_eq rfl rfl rfl, h.cycles_le, h.log, h.ordered, h.past⟩
    | plug jack change =>
      rw [stepMoments, heard, List.filterMap_nil, List.append_nil]
      exact ⟨h.wired.of_eq rfl rfl rfl, h.cycles_le, h.log, h.ordered, h.past⟩
  | drain =>
    obtain ⟨log, hlog, hframe, hwrites⟩ := h.log
    have hdrained : m.drained .drain = log.writes.toList := by
      rw [drained, hlog]
      rfl
    have hsound : (m.takeStep .drain).board.sound = some log.drain.2 := by
      change m.board.sound.map _ = _
      rw [hlog, Option.map_some]
    rw [hdrained, hwrites, stepMoments, heard, List.filterMap_nil, List.append_nil]
    have hrest : ∃ log, (m.takeStep .drain).board.sound = some log ∧ log.frame = frame ∧
        before ++ entries ++ log.writes.toList = before ++ entries :=
      ⟨_, hsound, hframe, List.append_nil _⟩
    exact ⟨h.wired.of_eq rfl rfl rfl, h.cycles_le, hrest, h.ordered, h.past⟩

theorem afterSteps_records (h : Records before taken entries frame m.board) (steps : List SoundStep) :
    Records before (taken ++ m.allDrained steps) (entries ++ m.score frame steps)
      (frame + m.framesBegun steps) (m.afterSteps steps).board := by
  induction steps generalizing m taken entries frame with
  | nil =>
    rw [allDrained, score, List.append_nil, List.append_nil]
    exact h
  | cons step rest ih =>
    have hrest := ih (takeStep_records h step)
    rwa [List.append_assoc, List.append_assoc, Nat.add_assoc] at hrest

end

theorem cycles_le_lasts : Board.Lasts fun _ b ↦ b.cycles ≤ Board.cycleLimit where
  step _ _ event h := Board.keeps_cycles_le.apply h event
  idle _ _ _ hidle h := hidle.cycles.trans_le h

theorem reset_cycles_le (m : Machine) : m.reset.board.cycles ≤ Board.cycleLimit := by
  have hstart : m.board.reset.cycles ≤ Board.cycleLimit := by
    rw [Board.reset_cycles]
    exact Nat.zero_le _
  have hreset : Along (fun _ b ↦ b.cycles ≤ Board.cycleLimit) [] m.resetMoments m.reset.board :=
    reset_lasts cycles_le_lasts hstart
  exact hreset.last

/-- No machine counts beyond the limit. -/
theorem Reachable.cycles_le {m : Machine} (h : Reachable m) : m.board.cycles ≤ Board.cycleLimit := by
  induction h with
  | off config power journal => exact Nat.zero_le _
  | insert h hcartridge ih => simpa only [mapBoard_board, Board.insert] using ih
  | adopt h television yStart height ih => exact reset_cycles_le _
  | reset h ih => exact reset_cycles_le _
  | @processFrame m h ih =>
    have hopened : m.openFrame.board.cycles ≤ Board.cycleLimit := by
      have hcycles := m.openFrame_cycles
      omega
    have hframe : Along (fun _ b ↦ b.cycles ≤ Board.cycleLimit) [] m.frameMoments
        m.processFrame.2.board := processFrame_lasts cycles_le_lasts hopened
    exact hframe.last
  | setSwitch h switch down ih => exact ih
  | plug h jack change ih => exact ih
  | listen h journal sound ih => exact ih
  | restartClock h ih => exact ih

/-! ## Recordings -/

/-- After a reset the log is as good as new. -/
theorem reset_sound {m : Machine} (h : m.board.Wired) {log : SoundLog} (hlog : m.board.sound = some log) :
    m.reset.board.sound = some {} := by
  have hsound : m.board.reset.sound = some {} := by
    rw [Board.reset_sound, hlog, Option.map_some]
  have hstart : Records [] [] ([] ++ heard 0 []) 0 m.board.reset := by
    refine ⟨h.reset, ?_, ⟨_, hsound, rfl, rfl⟩, .nil, nofun⟩
    rw [Board.reset_cycles]
    exact Nat.zero_le _
  have hsilent : heard 0 m.resetMoments = [] := by
    obtain ⟨low, high, hvector, -, -⟩ := m.resetMoments_spent
    rw [hvector]
    rfl
  obtain ⟨⟨frame, writes⟩, hreset, hframe, hwrites⟩ :=
    (reset_lasts (Records.lasts [] [] [] 0) hstart).last.log
  simp only [List.nil_append, hsilent] at hwrites
  obtain rfl : writes = #[] := by simpa using hwrites
  obtain rfl : frame = 0 := hframe
  exact hreset

/-- From any moment on, be it when a log is attached or when a reset has emptied it, what is taken out of the log is
what it held by then and the score. -/
theorem allDrained_eq_score {m : Machine} (h : Reachable m) {log : SoundLog}
    (hlog : m.board.sound = some log) :
    m.reset.board.sound = some {} ∧
      ∀ steps : List SoundStep,
        let entries := m.score log.frame steps
        m.allDrained (steps ++ [.drain]) = log.writes.toList ++ entries ∧
          entries.map (fun entry ↦ (entry.register, entry.value)) =
            (m.stepsMoments steps).filterMap (fun moment ↦ moment.event.soundWrite?) ∧
          entries.Pairwise SoundWrite.NoLater ∧
          ∃ last, (m.afterSteps steps).board.sound = some last ∧
            last.frame = log.frame + m.framesBegun steps := by
  refine ⟨reset_sound h.kept.wired hlog, fun steps ↦ ?_⟩
  have hstart : Records log.writes.toList [] [] log.frame m.board :=
    ⟨h.kept.wired, h.cycles_le, ⟨log, hlog, rfl, (List.append_nil _).symm⟩, .nil, nofun⟩
  obtain ⟨-, -, ⟨last, hlast, hframe, hwrites⟩, hordered, -⟩ := afterSteps_records hstart steps
  have hdrained : (m.afterSteps steps).drained .drain = last.writes.toList := by
    rw [drained, hlast]
    rfl
  refine ⟨?_, m.map_score _ steps, hordered, last, hlast, hframe⟩
  rw [allDrained_concat, hdrained]
  exact hwrites

/-- The machine with a log that has just been attached. -/
def listening (m : Machine) : Machine :=
  m.mapBoard fun board ↦ { board with sound := some {} }

theorem listening_sound (m : Machine) : m.listening.board.sound = some {} := rfl

theorem Reachable.listening {m : Machine} (h : Reachable m) : Reachable m.listening :=
  h.listen m.board.journal (some {})

/-- A program that begins with a store to the volume of the first channel. -/
theorem listening_score {m : Machine} (h : m.board.Shows (storing 0x19))
    (hpc : m.core.registers.pc = 0x1000) (hbetween : m.board.tia.frame.drawing = false) :
    ∃ value rest, m.listening.score 0 [.act .frame] = ⟨1, 3, 0x19, value⟩ :: rest := by
  have hshows : m.listening.board.Shows (storing 0x19) := h.keepsSetup ⟨rfl, rfl, rfl, rfl, rfl, rfl⟩
  obtain ⟨byte, past, moment, value, later, hframe, hpast, hwrite, -, -, hcycles⟩ :=
    frameMoments_of_storing hshows hpc hbetween
  have hsilent : heard 1 past = [] := by
    have hnothing : past.filterMap (fun moment ↦ moment.event.soundWrite?) = [] := by
      have hmapped := List.filterMap_map (l := past) (f := Moment.event) (g := BusEvent.soundWrite?)
      rw [hpast] at hmapped
      exact hmapped.symm
    rw [← map_heard 1 past] at hnothing
    exact List.map_eq_nil_iff.mp hnothing
  have hbegins : m.listening.begins = 1 := by
    change (if m.board.tia.frame.drawing then 0 else 1) = 1
    rw [hbetween, if_neg Bool.false_ne_true]
  have hentry : heard 1 (moment :: later) = ⟨1, 3, 0x19, value⟩ :: heard 1 later := by
    have hsound : moment.event.soundWrite? = some (0x19, value) := by
      rw [hwrite]
      rfl
    simp only [heard, List.filterMap_cons, hsound, Option.map_some, hcycles]
  refine ⟨value, heard 1 later, ?_⟩
  simp only [score, stepMoments, stepBegins, hbegins, hframe, Nat.zero_add, heard_append, hsilent, hentry,
    List.nil_append, List.append_nil]

/-- What is taken out of the log after a frame begins with that store, on the third cycle of frame one. -/
theorem allDrained_eq_score_of_storing :
    let m := (running (storing 0x19) {} (Riot.new 0) {}).listening
    m.board.sound = some {} ∧
      ∃ value rest, m.allDrained ([.act .frame] ++ [.drain]) = ⟨1, 3, 0x19, value⟩ :: rest := by
  have hreachable := running_reachable (storing 0x19) {} (Riot.new 0) {}
  obtain ⟨hshows, hpc, hbetween⟩ := running_shows (storing 0x19) {} (Riot.new 0) {}
  obtain ⟨value, rest, hscore⟩ := listening_score hshows (hpc.trans (by decide)) hbetween
  have hlog := listening_sound (running (storing 0x19) {} (Riot.new 0) {})
  obtain ⟨hdrained, -⟩ := (allDrained_eq_score hreachable.listening hlog).2 [.act .frame]
  refine ⟨hlog, value, rest, ?_⟩
  rw [hdrained, hscore]
  rfl

end Machine

end Vcs
