import Vcs.Proofs.Tia.DerivedState
import Vcs.Proofs.Tia.DisplayWindow
import Vcs.Proofs.Tia.Stored

/-!
# The Passage of the Beam

What a run of a frame is made of.  An access lets the beam go to a clock, the strobe of a player that is being
drawn a little further than its own, and then changes the chip where the beam stands.  Between two changes
there are only ticks, and a tick changes the objects only where it ends a line.  So what the ticks and the
changes keep holds all along a run, and holds of the chip as it draws any of its pixels.

Lines are counted by the beam itself: a line whose end has been reached is over when the beam moves on.
-/

namespace Vcs.Tia

namespace Beam

/-- Row of the window that the beam is on.  The end of a line belongs to it until the beam moves on. -/
def row (beam : Beam) : Int :=
  beam.swept / lineClocks - if beam.lineLeft = 0 then 1 else 0

@[simp]
theorem swept_rebase (beam : Beam) (clocks : Int) : (beam.rebase clocks).swept = beam.swept := by
  simp only [swept, rebase]
  omega

@[simp]
theorem row_rebase (beam : Beam) (clocks : Int) : (beam.rebase clocks).row = beam.row := by
  simp only [row, swept_rebase]
  rfl

theorem InStep.row_of_pixel {beam : Beam} (h : beam.InStep) {row column : Nat}
    (hcolumn : column < frameWidth) (hnow : beam.drawnTo = beam.pixelClock row column) :
    beam.row = row := by
  have hleft := h.lineLeft_pos hcolumn hnow
  rw [Beam.row, if_neg (by omega)]
  simp only [swept, pixelClock, lineClocks, blankClocks, frameWidth] at *
  omega

/-- The beam is on a row from the row's beginning, once the row above is over, to its end. -/
theorem InStep.row_eq_iff {beam : Beam} (h : beam.InStep) {row begins : Int}
    (hbegins : begins = beam.displayStart + lineClocks * row) (hfrom : begins ≤ beam.drawnTo) :
    beam.row = row ↔ (begins < beam.drawnTo ∨ beam.lineLeft ≠ 0) ∧
      (beam.drawnTo < begins + lineClocks ∨
        beam.drawnTo = begins + lineClocks ∧ beam.lineLeft = 0) := by
  have hmod := h.lineLeft_modEq
  unfold Beam.row
  simp only [Int.ModEq, swept, lineClocks] at *
  split <;> omega

end Beam

theorem tick_swept (s : Tia) : s.tick.beam.swept = s.beam.swept + 1 := by
  obtain ⟨drawn, hbeam⟩ := s.tick_beam
  simp only [Beam.swept, hbeam]
  omega

/-- The row changes where a tick ends a line. -/
theorem tick_row {s : Tia} (h : s.beam.InStep) :
    s.tick.beam.row = s.beam.row + if s.beam.lineLeft = 0 then 1 else 0 := by
  obtain ⟨drawn, hbeam⟩ := s.tick_beam
  have hmod := h.lineLeft_modEq
  have hle := h.lineLeft_le
  rw [Beam.row, Beam.row, tick_swept, hbeam]
  simp only [Int.ModEq, lineClocks] at *
  by_cases hleft : s.beam.lineLeft = 0
  · simp only [hleft, if_true]
    omega
  · simp only [hleft, if_false]
    split <;> omega

/-- A tick ends a line, or leaves the objects as they are. -/
theorem tick_line {s : Tia} (h : s.beam.InStep) :
    (s.tick.beam.row = s.beam.row + 1 ∧ s.tick.objects = s.objects.endLine) ∨
      (s.tick.beam.row = s.beam.row ∧ s.tick.objects = s.objects) := by
  rw [tick_row h, tick_objects]
  by_cases hleft : s.beam.lineLeft = 0
  · exact .inl ⟨by rw [if_pos hleft], if_pos hleft⟩
  · exact .inr ⟨by rw [if_neg hleft, Int.add_zero], if_neg hleft⟩

/-- What ticks keep holds when the beam has caught up. -/
theorem InFrame.catchUp_induction {settings : Settings} {s : Tia} (h : InFrame settings s)
    {motive : Tia → Prop} (clock : Int) (start : motive s)
    (step : ∀ t : Tia, t.beam.InStep → motive t → motive t.tick) : motive (s.catchUp clock) :=
  (Tia.catchUp_induction (motive := fun t ↦ t.beam.InStep ∧ motive t) h.inStep.lineLeft_le clock
    ⟨h.inStep, start⟩ fun t ht ↦ ⟨tick_inStep ht.1, step t ht.1 ht.2⟩).2

/-- The beam changes no object as long as it stays on a row. -/
theorem InFrame.objects_catchUp {settings : Settings} {s : Tia} (h : InFrame settings s)
    {clock : Int} (hrow : (s.catchUp clock).beam.row = s.beam.row) :
    (s.catchUp clock).objects = s.objects := by
  have hkept : s.beam.row ≤ (s.catchUp clock).beam.row ∧
      ((s.catchUp clock).beam.row = s.beam.row → (s.catchUp clock).objects = s.objects) := by
    refine h.catchUp_induction
      (motive := fun t ↦ s.beam.row ≤ t.beam.row ∧ (t.beam.row = s.beam.row → t.objects = s.objects))
      clock ⟨Int.le_refl _, fun _ ↦ rfl⟩ fun t hstep ht ↦ ?_
    rcases tick_line hstep with ⟨hrow, -⟩ | ⟨hrow, hobjects⟩
    · have hlater := ht.1
      exact ⟨by omega, fun hback ↦ by omega⟩
    · rwa [hrow, hobjects]
  exact hkept.2 hrow

namespace StrobeTiming

/-- Clocks that the beam goes on before the strobe of a player takes effect. -/
def lookAhead : StrobeTiming → Nat
  | midCopy => 11
  | _ => 0

theorem lookAhead_le (timing : StrobeTiming) : timing.lookAhead ≤ 11 := by
  cases timing <;> decide

/-- Whether the copy at the new position has to wait. -/
def skipsFirst : StrobeTiming → Bool
  | inDelay => false
  | _ => true

end StrobeTiming

/-- Column on which a strobe at a clock puts a player. -/
def strobePosition (s : Tia) (clock : Int) : UInt8 :=
  strobeColumn (s.beam.lineClock clock) 5 3

/-- Timing of a player strobe at a clock. -/
def strobeTiming (s : Tia) (which : Which) (clock : Int) : StrobeTiming :=
  .classify (s.objects.sizeMode which) (s.objects.players.get which).position
    (s.strobePosition clock)

/-- The player that a register strobes. -/
def Register.player? : Register → Option Which
  | .resp0 => some .zero
  | .resp1 => some .one
  | _ => none

theorem Register.player?_eq_some {register : Register} {which : Which}
    (h : register.player? = some which) : register = which.resp := by
  cases register with
  | resp0 => exact congrArg Which.resp (Option.some.inj h)
  | resp1 => exact congrArg Which.resp (Option.some.inj h)
  | _ => exact absurd h nofun

theorem Register.ne_resp_of_player? {register : Register} (h : register.player? = none)
    (which : Which) : register ≠ which.resp := by
  rintro rfl
  cases which <;> exact absurd h nofun

/-- When a strobe is timed nothing is looked at that lines age. -/
theorem strobeTiming_of_view {s t : Tia} (h : s.view .nothing = t.view .nothing) (which : Which)
    (clock : Int) : s.strobePosition clock = t.strobePosition clock ∧
      s.strobeTiming which clock = t.strobeTiming which clock := by
  have hview (r : Tia) : (r.view .nothing).strobePosition clock = r.strobePosition clock ∧
      (r.view .nothing).strobeTiming which clock = r.strobeTiming which clock := by
    cases which <;> exact ⟨rfl, rfl⟩
  rw [← (hview s).1, ← (hview s).2, h]
  exact hview t

theorem strobeTiming_catchUp {s : Tia} (hle : s.beam.lineLeft ≤ lineClocks) (which : Which)
    (clock stop : Int) : (s.catchUp stop).strobePosition clock = s.strobePosition clock ∧
      (s.catchUp stop).strobeTiming which clock = s.strobeTiming which clock :=
  strobeTiming_of_view (view_nothing_catchUp hle stop) which clock

theorem strobeTiming_store (s : Tia) (which : Which) (cycles : Nat) (value : UInt8)
    (clock : Int) : (s.store which.resp cycles value).strobePosition clock = s.strobePosition clock ∧
      (s.store which.resp cycles value).strobeTiming which clock = s.strobeTiming which clock := by
  have hmode : (s.store which.resp cycles value).objects.sizeMode which =
      s.objects.sizeMode which :=
    congrArg (· &&& 0x07) (nusiz_withStrobe s.objects which which value)
  refine ⟨rfl, ?_⟩
  rw [strobeTiming, hmode]
  rfl

/-- The register that an access writes to, if it does. -/
def Access.register? : Access → Option Register
  | .read .. => none
  | .write _ _ address _ => Register.ofAddress? address.toUInt8

/-- Clock to which an access lets the beam go. -/
def reachOf (s : Tia) (request : Access) : Int :=
  let clock := clockOf request.cycles
  match request.register? with
  | none => clock
  | some register =>
    match register.player? with
    | none => clock + register.delayOn (s.beam.lineCycle clock)
    | some which => clock + (s.strobeTiming which clock).lookAhead

/-- What an access makes of the chip where the beam stands then. -/
def settle (s : Tia) : Access → Tia
  | .read .. => s
  | .write cycles afterRead address value =>
    match Register.ofAddress? address.toUInt8 with
    | none => { s with frame := s.cutFrame cycles }
    | some register =>
      match register.player? with
      | none => (s.takeEffect register cycles afterRead value).1
      | some which =>
        (s.store register cycles value).mapObjects
          (·.placePlayer which (s.strobePosition (clockOf cycles))
            (s.strobeTiming which (clockOf cycles)).skipsFirst)

/-- The strobe of a player that the beam has caught up with. -/
theorem strobePlayer_eq {s : Tia} (which : Which) (clock : Int)
    (hcaught : s.catchUp clock = s) :
    s.strobePlayer which clock =
      (s.catchUp (clock + (s.strobeTiming which clock).lookAhead)).mapObjects
        (·.placePlayer which (s.strobePosition clock) (s.strobeTiming which clock).skipsFirst) := by
  have hnow : s.catchUp (clock + (0 : Nat)) = s := by simpa using hcaught
  have htiming : StrobeTiming.classify (s.objects.sizeMode which)
      (s.objects.players.get which).position (strobeColumn (s.beam.lineClock clock) 5 3) =
        s.strobeTiming which clock := rfl
  simp only [strobePlayer, htiming]
  cases s.strobeTiming which clock with
  | midCopy => rfl
  | clear => exact congrArg (mapObjects · _) hnow.symm
  | inDelay => exact congrArg (mapObjects · _) hnow.symm

/-- The strobe of a player, however far it lets the beam go. -/
theorem strobe_eq {s : Tia} (hle : s.beam.lineLeft ≤ lineClocks) (which : Which) (cycles : Nat)
    (value : UInt8) :
    ((s.catchUp (clockOf cycles)).store which.resp cycles value).strobePlayer which (clockOf cycles) =
      ((s.catchUp (clockOf cycles + (s.strobeTiming which (clockOf cycles)).lookAhead)).store
          which.resp cycles value).mapObjects
        (·.placePlayer which (s.strobePosition (clockOf cycles))
          (s.strobeTiming which (clockOf cycles)).skipsFirst) := by
  generalize hclock : clockOf cycles = clock
  let stored := (s.catchUp clock).store which.resp cycles value
  have hcaught : stored.catchUp clock = stored := by
    rw [store_catchUp (catchUp_lineLeft_le hle _), catchUp_catchUp hle, Int.max_self]
  obtain ⟨hposition, htiming⟩ : stored.strobePosition clock = s.strobePosition clock ∧
      stored.strobeTiming which clock = s.strobeTiming which clock := by
    have hstored := strobeTiming_store (s.catchUp clock) which cycles value clock
    have hthen := strobeTiming_catchUp hle which clock clock
    exact ⟨hstored.1.trans hthen.1, hstored.2.trans hthen.2⟩
  have hahead : max clock (clock + (s.strobeTiming which clock).lookAhead) =
      clock + (s.strobeTiming which clock).lookAhead := by omega
  calc
    stored.strobePlayer which clock =
        (stored.catchUp (clock + (s.strobeTiming which clock).lookAhead)).mapObjects
          (·.placePlayer which (s.strobePosition clock) (s.strobeTiming which clock).skipsFirst) := by
      rw [strobePlayer_eq which clock hcaught, hposition, htiming]
    _ = _ := by rw [store_catchUp (catchUp_lineLeft_le hle _), catchUp_catchUp hle, hahead]

/-- An access lets the beam go as far as it reaches, and changes the chip there. -/
theorem perform_eq_settle {s : Tia} (hle : s.beam.lineLeft ≤ lineClocks) (request : Access) :
    (s.perform request).2 = (s.catchUp (s.reachOf request)).settle request := by
  cases request with
  | read cycles dataBus ports address => rfl
  | write cycles afterRead address value =>
    have hwrite : (s.perform (.write cycles afterRead address value)).2 =
        (s.write cycles afterRead address value).1 := rfl
    rcases hregister : Register.ofAddress? address.toUInt8 with _ | register
    · rw [hwrite, write_of_none s hregister]
      simp only [settle, reachOf, Access.register?, Access.cycles, hregister]
    · rw [hwrite, write_of_register s hregister]
      rcases hplayer : register.player? with _ | which
      · simp only [settle, reachOf, Access.register?, Access.cycles, hregister, hplayer]
      · -- The strobe stops at its clock to look at the player; the beam may go on from there at once.
        obtain rfl := Register.player?_eq_some hplayer
        have hdelay : which.resp.delayOn (s.beam.lineCycle (clockOf cycles)) = 0 := by
          cases which <;> rfl
        have hnow : clockOf cycles + ((0 : Nat) : Int) = clockOf cycles := Int.add_zero _
        obtain ⟨hposition, htiming⟩ := strobeTiming_catchUp hle which (clockOf cycles)
          (clockOf cycles + (s.strobeTiming which (clockOf cycles)).lookAhead)
        rw [hdelay, hnow, takeEffect_resp, strobe_eq hle]
        simp only [settle, reachOf, Access.register?, Access.cycles, hregister, hplayer, hposition,
          htiming]

theorem settle_screen (s : Tia) (request : Access) : (s.settle request).screen = s.screen := by
  cases request with
  | read cycles dataBus ports address => rfl
  | write cycles afterRead address value =>
    simp only [settle]
    split
    · rfl
    · split
      · next register _ hplayer =>
        exact s.takeEffect_screen (Register.ne_resp_of_player? hplayer) cycles afterRead value
      · rfl

theorem settle_beam (s : Tia) (request : Access) : (s.settle request).beam = s.beam :=
  congrArg Screen.beam (s.settle_screen request)

section Perform

variable {settings : Settings} {s : Tia} (h : InFrame settings s) (request : Access)

include h

theorem drawnTo_perform : (s.perform request).2.beam.drawnTo =
    max s.beam.drawnTo (min (s.reachOf request) s.beam.displayStop) := by
  rw [perform_eq_settle h.inStep.lineLeft_le, settle_beam, h.drawnTo_catchUp]

theorem stamps_perform : (s.perform request).2.beam.stamps = s.beam.stamps := by
  rw [perform_eq_settle h.inStep.lineLeft_le, settle_beam, h.stamps_catchUp]

theorem pixelClock_perform (row column : Nat) :
    (s.perform request).2.beam.pixelClock row column = s.beam.pixelClock row column := by
  rw [perform_eq_settle h.inStep.lineLeft_le, settle_beam, h.pixelClock_catchUp]

end Perform

section SettlePart

variable {α : Type} {request : Access}

/-- An access leaves alone what neither its byte nor what its register is for changes. -/
theorem settle_part (s : Tia) (part : Tia → α) (cut : ∀ frame, part { s with frame := frame } = part s)
    (store : ∀ register cycles value, request.register? = some register →
      part (s.store register cycles value) = part s)
    (act : ∀ (t : Tia) register previous value clock cycles afterRead response,
      request.register? = some register → register.player? = none →
      part (t.actOn register previous value clock cycles afterRead response).1 = part t)
    (place : ∀ (t : Tia) (which : Which) position skipFirst, request.register? = some which.resp →
      part (t.mapObjects (·.placePlayer which position skipFirst)) = part t) :
    part (s.settle request) = part s := by
  cases request with
  | read cycles dataBus ports address => rfl
  | write cycles afterRead address value =>
    rcases hregister : Register.ofAddress? address.toUInt8 with _ | register
    · simp only [settle, hregister]
      exact cut _
    · rcases hplayer : register.player? with _ | which
      · simp only [settle, hregister, hplayer]
        exact (act _ register _ _ _ _ _ _ hregister hplayer).trans (store register _ _ hregister)
      · simp only [settle, hregister, hplayer]
        obtain rfl := Register.player?_eq_some hplayer
        exact (place _ which _ _ hregister).trans (store which.resp _ _ hregister)

end SettlePart

/-- The size register of a player and its missile is changed by its own writes alone. -/
theorem settle_nusiz (s : Tia) (which : Which) {request : Access}
    (h : request.register? ≠ some which.nusiz) :
    (s.settle request).objects.registers.get which.nusiz = s.objects.registers.get which.nusiz := by
  refine s.settle_part (fun t ↦ t.objects.registers.get which.nusiz) (fun _ ↦ rfl) ?_ ?_ ?_
  · intro register cycles value hregister
    refine RegisterFile.get_set_of_ne _ ?_ value
    rintro rfl
    exact h hregister
  · intro t register previous value clock cycles afterRead response hregister _
    refine t.actOn_get_of_ne ?_ ?_ previous value clock cycles afterRead response
    · rintro rfl
      exact h hregister
    · cases which <;> decide
  · intro t strobed position skipFirst _
    rfl

theorem Register.delayOn_le (register : Register) (cycle : Nat) : register.delayOn cycle ≤ 8 := by
  have hfixed : register.delay?.all (· ≤ 8) = true := by
    cases register <;> rfl
  unfold Register.delayOn
  rcases hdelay : register.delay? with _ | delay
  · simp only [Option.getD_none, Register.playfieldDelay]
    split <;> decide
  · rw [hdelay] at hfixed
    exact of_decide_eq_true hfixed

/-- No access lets the beam go further ahead of it than a strobe that finishes a copy. -/
theorem reachOf_le (s : Tia) (request : Access) :
    clockOf request.cycles ≤ s.reachOf request ∧
      s.reachOf request ≤ clockOf request.cycles + 11 := by
  unfold reachOf
  rcases request.register? with _ | register
  · dsimp only
    omega
  · have hdelay := register.delayOn_le (s.beam.lineCycle (clockOf request.cycles))
    rcases hplayer : register.player? with _ | which
    · simp only [hplayer]
      omega
    · have htiming := (s.strobeTiming which (clockOf request.cycles)).lookAhead_le
      simp only [hplayer]
      omega

/-- The step does not write to any of these registers. -/
def FrameStep.Spares (registers : List Register) : FrameStep → Prop
  | access request => ∀ register ∈ registers, request.register? ≠ some register
  | rebase _ => True

theorem FrameStep.spares_of_isRead {request : Access} (h : request.isRead)
    (registers : List Register) : (FrameStep.access request).Spares registers := by
  cases request with
  | read => exact fun register _ ↦ (Option.some_ne_none register).symm
  | write => exact absurd h Bool.false_ne_true

/-- Something that everything that happens in a frame keeps, but writes to these registers. -/
structure KeptBut (registers : List Register) (motive : Tia → Prop) : Prop where
  tick : ∀ s : Tia, s.beam.InStep → motive s → motive s.tick
  settle : ∀ (s : Tia) (request : Access), (FrameStep.access request).Spares registers →
    motive s → motive (s.settle request)
  rebase : ∀ (s : Tia) (cycles : Nat), motive s → motive (s.rebase cycles)

namespace KeptBut

variable {registers : List Register} {motive : Tia → Prop} (kept : KeptBut registers motive)
  {settings : Settings} {s : Tia} (h : InFrame settings s)

include kept h

theorem catchUp (clock : Int) (start : motive s) : motive (s.catchUp clock) :=
  h.catchUp_induction clock start kept.tick

theorem apply {step : FrameStep} (hspares : step.Spares registers) (start : motive s) :
    motive (step.apply s) := by
  cases step with
  | access request =>
    rw [FrameStep.apply, perform_eq_settle h.inStep.lineLeft_le]
    exact kept.settle _ request hspares (kept.catchUp h _ start)
  | rebase cycles => exact kept.rebase s cycles start

theorem play {steps : List FrameStep} (hspares : ∀ step ∈ steps, step.Spares registers)
    (start : motive s) : motive (s.play steps) := by
  induction steps generalizing s with
  | nil => exact start
  | cons step rest ih =>
    exact ih (h.apply step) (fun later hlater ↦ hspares later (List.mem_cons_of_mem _ hlater))
      (kept.apply h (hspares step List.mem_cons_self) start)

end KeptBut

/-! ## Pixels -/

/-- A chip that draws a pixel in a run: in the step that passes the pixel it has just got there. -/
def Draws (start : Tia) (steps : List FrameStep) (row column : Nat) (chip : Tia) : Prop :=
  ∃ count, PassesAt start steps row column count ∧
    chip = (start.play (steps.take count)).catchUp
      ((start.play (steps.take count)).beam.pixelClock row column)

/-- A pixel is drawn by the first step of a run or by one of the others. -/
theorem draws_cons {start : Tia} {step : FrameStep} {steps : List FrameStep} {row column : Nat}
    {chip : Tia} (h : start.Draws (step :: steps) row column chip) :
    (¬ start.beam.HasPassed row column ∧ (step.apply start).beam.HasPassed row column ∧
        chip = start.catchUp (start.beam.pixelClock row column)) ∨
      (step.apply start).Draws steps row column chip := by
  obtain ⟨count, hcount, rfl⟩ := h
  cases count with
  | zero => exact .inl ⟨hcount.2.1, hcount.2.2, rfl⟩
  | succ count =>
    obtain ⟨hlength, hnot, hpassed⟩ := hcount
    exact .inr ⟨count, ⟨Nat.lt_of_succ_lt_succ hlength, hnot, hpassed⟩, rfl⟩

theorem Draws.cons {start : Tia} {steps : List FrameStep} {row column : Nat} {chip : Tia}
    (step : FrameStep) (h : (step.apply start).Draws steps row column chip) :
    start.Draws (step :: steps) row column chip := by
  obtain ⟨count, ⟨hlength, hnot, hpassed⟩, rfl⟩ := h
  exact ⟨count + 1, ⟨Nat.succ_lt_succ hlength, hnot, hpassed⟩, rfl⟩

section Draws

variable {settings : Settings} {start chip : Tia} (h : InFrame settings start)
  {steps : List FrameStep} {row column : Nat}

include h

/-- What is kept all along the run holds as a pixel is drawn. -/
theorem KeptBut.draws {registers : List Register} {motive : Tia → Prop}
    (kept : KeptBut registers motive) (hspares : ∀ step ∈ steps, step.Spares registers)
    (hchip : start.Draws steps row column chip) (hstart : motive start) : motive chip := by
  obtain ⟨count, -, rfl⟩ := hchip
  refine kept.catchUp (h.play _) _ (kept.play h (fun step hstep ↦ ?_) hstart)
  exact hspares step (List.mem_of_mem_take hstep)

theorem exists_draws (hcolumn : column < frameWidth) (hfrom : ¬ start.beam.HasPassed row column)
    (hto : (start.play steps).beam.HasPassed row column) :
    ∃ chip, start.Draws steps row column chip := by
  obtain ⟨count, hcount, -⟩ := existsUnique_passesAt h hcolumn steps hfrom hto
  exact ⟨_, count, hcount, rfl⟩

/-- What is drawn in a run was not drawn before it. -/
theorem Draws.not_hasPassed (hcolumn : column < frameWidth)
    (hchip : start.Draws steps row column chip) : ¬ start.beam.HasPassed row column := by
  obtain ⟨count, ⟨-, hnot, -⟩, -⟩ := hchip
  exact fun hpassed ↦ hnot (h.play_hasPassed hcolumn _ hpassed)

variable (hrow : row < settings.height.toNat) (hcolumn : column < frameWidth)

include hrow hcolumn

theorem InFrame.drawnTo_catchUp_pixel (hnot : ¬ start.beam.HasPassed row column) :
    (start.catchUp (start.beam.pixelClock row column)).beam.drawnTo =
      start.beam.pixelClock row column := by
  have hmem := h.pixelClock_mem hrow hcolumn
  rw [h.drawnTo_catchUp]
  unfold Beam.HasPassed at hnot
  omega

/-- The chip that draws a pixel is at the pixel's clock. -/
theorem Draws.now (hchip : start.Draws steps row column chip) :
    InFrame settings chip ∧ chip.beam.drawnTo = chip.beam.pixelClock row column := by
  obtain ⟨count, ⟨-, hnot, -⟩, rfl⟩ := hchip
  have hreached : InFrame settings (start.play (steps.take count)) := h.play _
  refine ⟨hreached.catchUp _, ?_⟩
  rw [hreached.pixelClock_catchUp, hreached.drawnTo_catchUp_pixel hrow hcolumn hnot]

theorem Draws.row_eq (hchip : start.Draws steps row column chip) : chip.beam.row = row := by
  obtain ⟨hframe, hnow⟩ := hchip.now h hrow hcolumn
  exact hframe.inStep.row_of_pixel hcolumn hnow

/-- In the end the pixel has the colour that its column has in the chip that draws it. -/
theorem Draws.pixel (hchip : start.Draws steps row column chip) :
    (start.play steps).video.current[pixelIndex row column]? =
      start.video.current[pixelIndex row column]?.map fun _ ↦ chip.shade column := by
  obtain ⟨hframe, hnow⟩ := hchip.now h hrow hcolumn
  have hline : chip.turnLine = chip := turnLine_of_pixel hframe.inStep hcolumn hnow
  obtain ⟨count, hcount, rfl⟩ := hchip
  rw [play_of_passesAt h hcolumn hrow hcount, hline]

end Draws

/-- A read when all of the window is over. -/
theorem InFrame.exists_lastRead {settings : Settings} {s : Tia} (h : InFrame settings s) :
    ∃ request : Access, request.isRead ∧ (s.perform request).2.beam.drawnTo = s.beam.displayStop := by
  have hle := h.drawnTo_le
  refine ⟨.read s.beam.displayStop.toNat 0 {} 0, rfl, ?_⟩
  have hread : (s.perform (.read s.beam.displayStop.toNat 0 {} 0)).2 =
      s.catchUp (clockOf s.beam.displayStop.toNat) := rfl
  rw [hread, h.drawnTo_catchUp]
  simp only [clockOf, clocksPerCycle]
  omega

/-- What has not been drawn yet is drawn in time, if somebody asks for it. -/
theorem InFrame.exists_draws_read {settings : Settings} {s : Tia} (h : InFrame settings s)
    (steps : List FrameStep) {row column : Nat} (hrow : row < settings.height.toNat)
    (hcolumn : column < frameWidth) (hfrom : ¬ s.beam.HasPassed row column) :
    ∃ request : Access, request.isRead ∧
      ∃ chip, s.Draws (steps ++ [.access request]) row column chip := by
  have hthen := h.play steps
  obtain ⟨request, hread, hlast⟩ := hthen.exists_lastRead
  refine ⟨request, hread, exists_draws h hcolumn hfrom ?_⟩
  rw [play_append]
  change ((s.play steps).perform request).2.beam.HasPassed row column
  rw [Beam.HasPassed, pixelClock_perform hthen, hlast]
  exact (hthen.pixelClock_mem hrow hcolumn).2

end Vcs.Tia
