import Mathlib.Data.List.Forall2
import Vcs.Console.Board
import Vcs.Proofs.Riot.Rebase
import Vcs.Proofs.Tia.Rebase

/-!
# Restarting the Cycle Counter

The console restarts its cycle counter once a frame, so that it never overflows.  Two chips keep stamps that
refer to the counter, in processor cycles and in colour clocks, and all of them are moved back.  Main
statement: whatever the processor does afterwards, it does not notice, and neither does anybody who looks at
the board.  Only the two counters themselves differ, and with them the stamps on the writes that reach the
sound log.  The counter must stay below the clock that stands for idle vertical sync.
-/

namespace Vcs

/-- The write as it is recorded in a frame by a counter that is some cycles ahead. -/
def SoundWrite.recordedIn (entry : SoundWrite) (frame ahead : Nat) : SoundWrite :=
  { entry with frame := frame, cycle := entry.cycle + ahead }

namespace Board

/-- What the processor does to the board. -/
inductive Traffic where
  | read (address : UInt16)
  | write (address : UInt16) (value : UInt8)
  | elapse (cycles : Nat)

def Traffic.apply (b : Board) : Traffic → Board
  | read address => b.read address
  | write address value => b.write address value
  | elapse cycles => b.elapse cycles

/-- The board at the start of a run and behind everything that happens in it. -/
def history (b : Board) : List Traffic → List Board
  | [] => [b]
  | step :: rest => b :: (step.apply b).history rest

/-- The last cycle whose clock is before that of idle vertical sync. -/
abbrev counterBound : Nat := 715827882

/-- The sound logs of two runs since the counter of the second was restarted: the log of that moment, the
log of the run that went on, and the one of the run that began to count anew. -/
inductive SoundShifted (count : Nat) : Option SoundLog → Option SoundLog → Option SoundLog → Prop
  | silent : SoundShifted count none none none
  | recorded (older : SoundLog) (newer : Array SoundWrite) :
      SoundShifted count (some older)
        (some { older with writes := older.writes ++ newer.map (·.recordedIn older.frame count) })
        (some { frame := older.frame + 1
                writes := older.writes ++ newer.map (·.recordedIn (older.frame + 1) 0) })

/-- The board under a counter that is `count` cycles behind. -/
def shifted (b : Board) (count : Nat) (due : Int) (sound : Option SoundLog) : Board :=
  { b with
    tia := b.tia.shifted count due
    riot := b.riot.rebase count
    sound := sound
    cycles := b.cycles - count }

/-- The board may be seen from a counter that was restarted after `count` cycles. -/
structure Shifts (count : Nat) (older : Option SoundLog) (due : Int) (sound : Option SoundLog)
    (b : Board) : Prop where
  le_cycles : count ≤ b.cycles
  sync : Tia.SyncShifted count b.tia.frame.syncDue due
  sound : SoundShifted count older b.sound sound

theorem SoundShifted.record {count cycles : Nat} {older log moved : Option SoundLog}
    (h : SoundShifted count older log moved) (hcycles : count ≤ cycles) (register value : UInt8) :
    SoundShifted count older (log.map (·.record register value cycles))
      (moved.map (·.record register value (cycles - count))) := by
  cases h with
  | silent => exact .silent
  | recorded older newer =>
    have hstamp : cycles - count + count = cycles := Nat.sub_add_cancel hcycles
    have hnext := @SoundShifted.recorded count older
      (newer.push ⟨0, cycles - count, register, value⟩)
    simpa [SoundWrite.recordedIn, SoundLog.record, hstamp] using hnext

theorem elapse_shifted {b : Board} {count cycles : Nat} (h : count ≤ b.cycles)
    (hbound : (b.elapse cycles).cycles ≤ counterBound) (due : Int) (sound : Option SoundLog) :
    (b.shifted count due sound).elapse cycles = (b.elapse cycles).shifted count due sound := by
  have hcycles : min (b.cycles - count + cycles) cycleLimit =
      min (b.cycles + cycles) cycleLimit - count := by
    simp only [elapse, cycleLimit, counterBound, UInt32.size] at *
    omega
  simp only [elapse, shifted, hcycles]

theorem Shifts.elapse {b : Board} {count cycles : Nat} {older sound : Option SoundLog} {due : Int}
    (h : Shifts count older due sound b) (hbound : (b.elapse cycles).cycles ≤ counterBound) :
    Shifts count older due sound (b.elapse cycles) := by
  have hle := h.le_cycles
  refine ⟨?_, h.sync, h.sound⟩
  simp only [Board.elapse, cycleLimit, counterBound, UInt32.size] at *
  omega

theorem respond_shifted {b : Board} {count : Nat} {older sound : Option SoundLog} {due : Int}
    (h : Shifts count older due sound b) (response : Tia.Response)
    (hbound : (b.respond response).cycles ≤ counterBound) :
    ∃ log, Shifts count older due log (b.respond response) ∧
      (b.shifted count due sound).respond response =
        (b.respond response).shifted count due log := by
  rcases hsound : response.sound with _ | ⟨register, value⟩
  · refine ⟨sound, ?_, ?_⟩
    · simp only [respond, hsound] at hbound ⊢
      exact Shifts.elapse ⟨h.le_cycles, h.sync, h.sound⟩ hbound
    · simp only [respond, hsound] at hbound ⊢
      exact elapse_shifted (by exact h.le_cycles) hbound due sound
  · refine ⟨sound.map (·.record register value (b.cycles - count)), ?_, ?_⟩
    · simp only [respond, hsound] at hbound ⊢
      exact Shifts.elapse ⟨h.le_cycles, h.sync, h.sound.record h.le_cycles register value⟩ hbound
    · simp only [respond, hsound] at hbound ⊢
      exact elapse_shifted (by exact h.le_cycles) hbound due _

section Devices

variable {b : Board} {count : Nat} {older : Option SoundLog} {due : Int} {sound : Option SoundLog}

theorem readTia_shifted (h : count ≤ b.cycles) (address : UInt16) :
    (b.shifted count due sound).readTia address =
      (b.readTia address).shifted count due sound := by
  simp only [readTia, shifted, Tia.read_shifted _ _ _ h]

theorem readRiot_shifted (h : count ≤ b.cycles) (address : UInt16) :
    (b.shifted count due sound).readRiot address =
      (b.readRiot address).shifted count due sound := by
  simp only [readRiot, shifted, Riot.read_rebase _ h]

theorem readCartridge_shifted (address : UInt16) :
    (b.shifted count due sound).readCartridge address =
      (b.readCartridge address).shifted count due sound := by
  have hcartridge : (b.shifted count due sound).cartridge = b.cartridge := rfl
  rcases hslot : b.cartridge with _ | cartridge
  · simp only [readCartridge, hcartridge, hslot]
    rfl
  · simp only [readCartridge, hcartridge, hslot]
    rfl

theorem writeCartridge_shifted (address : UInt16) (value : UInt8) :
    (b.shifted count due sound).writeCartridge address value =
      (b.writeCartridge address value).shifted count due sound := by
  have hcartridge : (b.shifted count due sound).cartridge = b.cartridge := rfl
  rcases hslot : b.cartridge with _ | cartridge
  · simp only [writeCartridge, hcartridge, hslot]
  · simp only [writeCartridge, hcartridge, hslot]
    rfl

theorem writeRiot_shifted (h : count ≤ b.cycles) (address : UInt16) (value : UInt8) :
    (b.shifted count due sound).writeRiot address value =
      (b.writeRiot address value).shifted count due sound := by
  simp only [writeRiot, shifted, Riot.write_rebase _ h]

theorem read_shifted (h : count ≤ b.cycles) (address : UInt16) :
    (b.shifted count due sound).read address = (b.read address).shifted count due sound := by
  have hroute : (b.shifted count due sound).pages.routeRead (b.shifted count due sound).store address =
      b.pages.routeRead b.store address := rfl
  simp only [read, hroute, readDevice, readCartridge_shifted, readRiot_shifted h, readTia_shifted h]
  split
  · rfl
  · split_ifs <;> rfl

/-- The chip may store a clock at which sync is due, have a sound recorded and stall the processor. -/
theorem writeTia_shifted (h : Shifts count older due sound b) (hbefore : b.cycles ≤ counterBound)
    (address : UInt16) (value : UInt8)
    (hafter : (b.writeTia address value).cycles ≤ counterBound) :
    ∃ next log, Shifts count older next log (b.writeTia address value) ∧
      (b.shifted count due sound).writeTia address value =
        (b.writeTia address value).shifted count next log := by
  have hclock : Tia.clockOf b.cycles < Tia.syncIdle := by
    simp only [Tia.clockOf, Tia.clocksPerCycle, Tia.syncIdle, counterBound] at *
    omega
  obtain ⟨next, hnext, hwrite⟩ :=
    Tia.write_shifted h.le_cycles h.sync hclock b.afterRead address value
  have hstored : Shifts count older next sound
      { b with tia := (b.tia.write b.cycles b.afterRead address value).1 } :=
    ⟨h.le_cycles, hnext, h.sound⟩
  obtain ⟨log, hlog, hrespond⟩ := respond_shifted hstored _ hafter
  refine ⟨next, log, hlog, ?_⟩
  have hmoved : (b.shifted count due sound).tia.write (b.shifted count due sound).cycles
      (b.shifted count due sound).afterRead address value =
        ((b.tia.write b.cycles b.afterRead address value).1.shifted count next,
          (b.tia.write b.cycles b.afterRead address value).2) := hwrite
  simp only [writeTia, hmoved]
  exact hrespond

theorem Shifts.writeCartridge (h : Shifts count older due sound b) (address : UInt16)
    (value : UInt8) : Shifts count older due sound (b.writeCartridge address value) := by
  unfold Board.writeCartridge
  split
  · exact h
  · exact ⟨h.le_cycles, h.sync, h.sound⟩

theorem writeDevice_shifted (h : Shifts count older due sound b) (hbefore : b.cycles ≤ counterBound)
    (id : DeviceId) (address : UInt16) (value : UInt8)
    (hafter : (b.writeDevice id address value).cycles ≤ counterBound) :
    ∃ next log, Shifts count older next log (b.writeDevice id address value) ∧
      (b.shifted count due sound).writeDevice id address value =
        (b.writeDevice id address value).shifted count next log := by
  by_cases hcartridge : id = cartridgeId
  · have hcycles : (b.writeCartridge address value).cycles = b.cycles := by
      unfold Board.writeCartridge
      split <;> rfl
    by_cases hlow : address &&& 0x1000 = 0
    · simp only [writeDevice, if_pos hcartridge, if_pos hlow, writeCartridge_shifted] at hafter ⊢
      exact writeTia_shifted (h.writeCartridge address value) (hcycles ▸ hbefore) address value hafter
    · simp only [writeDevice, if_pos hcartridge, if_neg hlow, writeCartridge_shifted]
      exact ⟨due, sound, h.writeCartridge address value, rfl⟩
  · by_cases hriot : id = riotId
    · simp only [writeDevice, if_neg hcartridge, if_pos hriot, writeRiot_shifted h.le_cycles]
      exact ⟨due, sound, ⟨h.le_cycles, h.sync, h.sound⟩, rfl⟩
    · simp only [writeDevice, if_neg hcartridge, if_neg hriot] at hafter ⊢
      exact writeTia_shifted h hbefore address value hafter

theorem write_shifted (h : Shifts count older due sound b) (hbefore : b.cycles ≤ counterBound)
    (address : UInt16) (value : UInt8) (hafter : (b.write address value).cycles ≤ counterBound) :
    ∃ next log, Shifts count older next log (b.write address value) ∧
      (b.shifted count due sound).write address value =
        (b.write address value).shifted count next log := by
  have hroute : (b.shifted count due sound).pages.routeWrite (b.shifted count due sound).store
      address value = b.pages.routeWrite b.store address value := rfl
  rcases hserved : b.pages.routeWrite b.store address value with ⟨_ | id, store⟩
  · simp only [write, hroute, hserved]
    exact ⟨due, sound, ⟨h.le_cycles, h.sync, h.sound⟩, rfl⟩
  · have hstored : Shifts count older due sound { b with store := store } :=
      ⟨h.le_cycles, h.sync, h.sound⟩
    simp only [write, hserved] at hafter
    obtain ⟨next, log, hnext, hwrite⟩ := writeDevice_shifted hstored hbefore id address value hafter
    refine ⟨next, log, ?_, ?_⟩
    · simp only [write, hserved]
      exact ⟨hnext.le_cycles, hnext.sync, hnext.sound⟩
    · have hmoved : { b.shifted count due sound with store := store }.writeDevice id address value =
          ({ b with store := store }.writeDevice id address value).shifted count next log := hwrite
      simp only [write, hroute, hserved, hmoved]
      rfl

theorem Shifts.read (h : Shifts count older due sound b) (address : UInt16) :
    Shifts count older due sound (b.read address) := by
  have hkeeps : (b.read address).cycles = b.cycles ∧ (b.read address).sound = b.sound ∧
      (b.read address).tia.frame = b.tia.frame := by
    unfold Board.read readDevice readCartridge readRiot readTia
    dsimp only
    split
    · exact ⟨rfl, rfl, rfl⟩
    · split_ifs
      · split
        · exact ⟨rfl, rfl, rfl⟩
        · exact ⟨rfl, rfl, rfl⟩
      · exact ⟨rfl, rfl, rfl⟩
      · exact ⟨rfl, rfl, Tia.catchUp_frame _ _⟩
  obtain ⟨hcycles, hsound, hframe⟩ := hkeeps
  constructor
  · rw [hcycles]
    exact h.le_cycles
  · rw [hframe]
    exact h.sync
  · rw [hsound]
    exact h.sound

/-! ## Runs -/

theorem apply_shifted (h : Shifts count older due sound b) (hbefore : b.cycles ≤ counterBound)
    (step : Traffic) (hafter : (step.apply b).cycles ≤ counterBound) :
    ∃ next log, Shifts count older next log (step.apply b) ∧
      step.apply (b.shifted count due sound) = (step.apply b).shifted count next log := by
  cases step with
  | read address => exact ⟨due, sound, h.read address, read_shifted h.le_cycles address⟩
  | write address value => exact write_shifted h hbefore address value hafter
  | elapse cycles =>
    exact ⟨due, sound, h.elapse hafter, elapse_shifted h.le_cycles hafter due sound⟩

/-- The two runs go on side by side. -/
theorem history_shifted (h : Shifts count older due sound b) (run : List Traffic)
    (hbound : ∀ state ∈ b.history run, state.cycles ≤ counterBound) :
    List.Forall₂
      (fun state moved ↦ ∃ next log, Shifts count older next log state ∧
        moved = state.shifted count next log)
      (b.history run) ((b.shifted count due sound).history run) := by
  induction run generalizing b due sound with
  | nil => exact .cons ⟨due, sound, h, rfl⟩ .nil
  | cons step rest ih =>
    have hbefore : b.cycles ≤ counterBound := hbound b List.mem_cons_self
    have hrest : ∀ state ∈ (step.apply b).history rest, state.cycles ≤ counterBound := by
      intro state hmem
      exact hbound state (List.mem_cons_of_mem _ hmem)
    have hfirst : step.apply b ∈ (step.apply b).history rest := by
      cases rest <;> exact List.mem_cons_self
    obtain ⟨next, log, hnext, hstep⟩ := apply_shifted h hbefore step (hrest _ hfirst)
    apply List.Forall₂.cons ⟨due, sound, h, rfl⟩
    rw [hstep]
    exact ih hnext hrest

end Devices

/-- What programs and spectators make out of a board. -/
structure Observation where
  dataBus : UInt8
  afterRead : Bool
  stop : Bool
  store : Store
  cartridge : Option Cartridge
  pages : PageTable
  ports : Ports
  switches : ConsoleSwitches
  journal : Journal
  video : Tia.Video
  collisions : UInt16
  objects : Tia.Objects
  scanline : Int
  lineClock : Nat
  span : Tia.PictureSpan
  completed : Nat
  lastLength : Int
  drawing : Bool
  overrun : Bool

def observe (b : Board) : Observation where
  dataBus := b.dataBus
  afterRead := b.afterRead
  stop := b.stop
  store := b.store
  cartridge := b.cartridge
  pages := b.pages
  ports := b.ports
  switches := b.switches
  journal := b.journal
  video := b.tia.video
  collisions := b.tia.collisions
  objects := b.tia.objects
  scanline := b.tia.scanlines b.cycles
  lineClock := b.tia.lineClock b.cycles
  span := b.tia.span
  completed := b.tia.frame.completed
  lastLength := b.tia.frame.lastLength
  drawing := b.tia.frame.drawing
  overrun := b.tia.frame.overrun

theorem observe_shifted {b : Board} {count : Nat} (h : count ≤ b.cycles) (due : Int)
    (sound : Option SoundLog) : (b.shifted count due sound).observe = b.observe := by
  have hscanline : (b.tia.shifted count due).scanlines (b.cycles - count) =
      b.tia.scanlines b.cycles := by
    rw [Tia.scanlines, Tia.clockOf_sub h]
    exact Tia.scanline_rebase _ _ _
  have hlineClock : (b.tia.shifted count due).lineClock (b.cycles - count) =
      b.tia.lineClock b.cycles := by
    rw [Tia.lineClock, Tia.clockOf_sub h]
    exact Tia.lineClock_rebase _ _ _
  simp only [observe, shifted, hscanline, hlineClock]
  rfl

theorem resetCycles_eq_shifted (b : Board) :
    b.resetCycles = b.shifted b.cycles (b.tia.frame.syncDue - Tia.clockOf b.cycles)
      (b.sound.map (·.nextFrame)) := by
  simp only [resetCycles, shifted, Nat.sub_self]
  rfl

theorem resetCycles_shifts (b : Board) :
    Shifts b.cycles b.sound (b.tia.frame.syncDue - Tia.clockOf b.cycles)
      (b.sound.map (·.nextFrame)) b := by
  refine ⟨Nat.le_refl _, .inl rfl, ?_⟩
  rcases b.sound with _ | log
  · exact .silent
  · have hnew := @SoundShifted.recorded b.cycles log #[]
    simp only [Array.map_empty, Array.append_empty] at hnew
    exact hnew

/-- What a board has in common with the board of a run whose counter was restarted after `count` cycles. -/
structure Agrees (count : Nat) (older : Option SoundLog) (state moved : Board) : Prop where
  observe_eq : moved.observe = state.observe
  cycles_eq : state.cycles = moved.cycles + count
  sound : SoundShifted count older state.sound moved.sound

/-- Whether the cycle counter is restarted or not, whatever the processor does then shows the same board at
every point.  The counters of the two runs differ by the count that was reset, and so do the cycles under
which sounds are recorded. -/
theorem resetCycles_unobservable (b : Board) (run : List Traffic)
    (hbound : ∀ state ∈ b.history run, state.cycles ≤ counterBound) :
    List.Forall₂ (Agrees b.cycles b.sound) (b.history run) (b.resetCycles.history run) := by
  rw [resetCycles_eq_shifted]
  apply (history_shifted b.resetCycles_shifts run hbound).imp
  intro state moved hmoved
  obtain ⟨due, log, hshifts, rfl⟩ := hmoved
  exact {
    observe_eq := observe_shifted hshifts.le_cycles due log
    cycles_eq := (Nat.sub_add_cancel hshifts.le_cycles).symm
    sound := hshifts.sound }

/-- A sound, a wait for the next line and a read, with and without a restart after a frame of cycles. -/
theorem resetCycles_unobservable_of_wait :
    let console := Board.new (Tia.new {}) (Riot.new 1).1 (Riot.new 1).2 {}
    let b := { console.elapse 19912 with sound := some {} }
    let run : List Traffic := [.elapse 20, .write 0x15 0x04, .write 0x02 0x00, .read 0x02]
    List.Forall₂ (Agrees b.cycles b.sound) (b.history run) (b.resetCycles.history run) :=
  resetCycles_unobservable _ _ (by decide +kernel)

end Board

end Vcs
