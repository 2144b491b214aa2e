import Vcs.Proofs.Tia.Aging
import Vcs.Proofs.Tia.ColorLoss

/-!
# Settings in Use

Other settings do not wait for a reset.  The chip keeps one copy of them and looks at it whenever it needs to:
the scanline ceiling at every write, lost colour where a colour is written and where a frame begins, the blank
that goes with a motion strobe at the strobe, and the display window where a frame begins.  Drawing, reads, the
end of a frame and a restart of the cycle counter do not look at them.

For every operation it is said here exactly when it finds out that the settings are other ones.  Main statement:
a run goes on as if the settings had been left alone, in every answer and in all of the chip but the settings
themselves, if and only if no operation of it finds out.
-/

namespace Vcs.Tia

section Drawing

variable (s : Tia) (new : Settings)

theorem drawSegment_setSettings (column count : Nat) :
    (s.setSettings new).drawSegment column count = (s.drawSegment column count).setSettings new := by
  unfold drawSegment
  dsimp only
  rw [apply_ite (Tia.setSettings · new)]
  rfl

theorem blankEdge_setSettings (pointer start count : Nat) :
    (s.setSettings new).blankEdge pointer start count =
      (s.blankEdge pointer start count).setSettings new := by
  unfold blankEdge
  rw [apply_ite (Tia.setSettings · new)]
  rfl

theorem drawStretch_setSettings (start count : Nat) :
    (s.setSettings new).drawStretch start count = (s.drawStretch start count).setSettings new := by
  simp only [drawStretch, drawSegment_setSettings, blankEdge_setSettings]
  rfl

theorem sweep_setSettings (clock : Int) :
    (s.setSettings new).sweep clock = (s.sweep clock).setSettings new := by
  have hdraw (start count : Nat) (beam : Beam) :
      { s.setSettings new with beam := beam }.drawStretch start count =
        ({ s with beam := beam }.drawStretch start count).setSettings new :=
    drawStretch_setSettings { s with beam := beam } new start count
  have hbeam : (s.setSettings new).beam = s.beam := rfl
  simp only [sweep, hbeam, hdraw]
  rw [apply_ite (Tia.setSettings · new)]
  rfl

theorem sweepTo_setSettings (clock : Int) :
    (s.setSettings new).sweepTo clock = (s.sweepTo clock).setSettings new := by
  fun_induction sweepTo s clock with
  | case1 s next hlt ih =>
    rw [sweepTo, sweep_setSettings]
    exact (if_pos hlt).trans ih
  | case2 s next hge =>
    rw [sweepTo, sweep_setSettings]
    exact if_neg hge

/-- Drawing does not look at the settings. -/
theorem catchUp_setSettings (clock : Int) :
    (s.setSettings new).catchUp clock = (s.catchUp clock).setSettings new := by
  have hbeam : (s.setSettings new).beam = s.beam := rfl
  rw [catchUp, catchUp, hbeam, sweepTo_setSettings, apply_ite (Tia.setSettings · new)]

end Drawing

/-- What an operation gives the rest of the system, entries of the journal left out. -/
inductive Reply where
  | none
  | byte (value : UInt8)
  /-- A stop, cycles of a stall and a write to a sound register. -/
  | asks (stop : Bool) (stall : Nat) (sound : Option (UInt8 × UInt8))
  /-- Whether a frame has ended. -/
  | ended (frame : Bool)
  deriving DecidableEq

def Response.asks (response : Response) : Reply :=
  .asks response.stop response.stall response.sound

def Answer.reply : Answer → Reply
  | .byte value => .byte value
  | .response answer => answer.asks

def reply (s : Tia) : Operation → Reply
  | .access request => (s.perform request).1.reply
  | .finishFrame cycles => .ended (s.finishFrame cycles).1
  | _ => .none

/-- Every answer of a run, with the chip behind it. -/
def trace (s : Tia) : List Operation → List (Reply × Tia)
  | [] => []
  | operation :: rest => (s.reply operation, s.operate operation) :: (s.operate operation).trace rest

/-- Neither a reset nor another change of the settings. -/
def Operation.betweenResets : Operation → Bool
  | setSettings _ | reset _ => false
  | _ => true

/-- An operation between resets finds out that the settings are `new` ones. -/
def Heeds (s : Tia) (new : Settings) : Operation → Prop
  | .access (.write cycles _ address value) =>
    -- Cutting the frame off makes no difference to a frame that has been cut off before and now ends anyway.
    ((s.setSettings new).isPast cycles ≠ s.isPast cycles ∧
        ¬ (s.frame.overrun ∧ s.releasesSync cycles address value)) ∨
      ((∃ register ∈ colorRegisters, names address register) ∧
        (s.setSettings new).losesColor ≠ s.losesColor) ∨
      (names address .hmove ∧ new.motionBlanks ≠ s.settings.motionBlanks ∧
        Motion.blanksEdge (s.beam.lineCycle (clockOf cycles)) ∧
        ¬ (s.catchUp (clockOf cycles)).blankPending)
  | .beginFrame _ =>
    new.yStart ≠ s.settings.yStart ∨ new.clamped.height ≠ s.settings.height ∨
      (new.colorLoss ≠ s.settings.colorLoss ∧
        ∃ register ∈ colorRegisters, ¬ Marked (s.frame.lastLength % 2 != 0) (s.color register))
  | _ => False

instance (s : Tia) (new : Settings) : (operation : Operation) → Decidable (s.Heeds new operation)
  | .access (.write ..) => inferInstanceAs (Decidable (_ ∨ _))
  | .beginFrame _ => inferInstanceAs (Decidable (_ ∨ _))
  | .access (.read ..) | .finishFrame _ | .rebase _ | .setSettings _ | .reset _ =>
    inferInstanceAs (Decidable False)

/-- With the settings replaced a write has come to the same, but for the settings. -/
structure AsBefore (new : Settings) (after live : Tia × Response) : Prop where
  chip : live.1 = after.1.setSettings new
  asks : live.2.asks = after.2.asks

theorem cutResponse_asks (s : Tia) (cycles : Nat) :
    (s.cutResponse cycles).asks = .asks (s.isPast cycles) 0 none := by
  unfold cutResponse
  cases s.isPast cycles <;> rfl

theorem cutFrame_lastLength (s : Tia) (cycles : Nat) :
    (s.cutFrame cycles).lastLength = s.frame.lastLength := by
  unfold cutFrame
  split <;> rfl

/-- Whether a blank is pending behind a motion strobe at a clock. -/
def blanksAt (s : Tia) (clock : Int) : Bool :=
  s.blankPending || s.settings.motionBlanks && Motion.blanksEdge (s.beam.lineCycle clock)

theorem strobePlayer_setSettings (s : Tia) (new : Settings) (which : Which) (clock : Int) :
    (s.setSettings new).strobePlayer which clock = (s.strobePlayer which clock).setSettings new := by
  have hbeam : (s.setSettings new).beam = s.beam := rfl
  have hobjects : (s.setSettings new).objects = s.objects := rfl
  simp only [strobePlayer, hbeam, hobjects, catchUp_setSettings]
  split <;> rfl

/-- What a register is for does not depend on the settings, but for the colours and the motion strobe. -/
theorem actOn_setSettings (s : Tia) {new : Settings} {register : Register} {clock : Int}
    (hcolor : register ∈ colorRegisters → (s.setSettings new).losesColor = s.losesColor)
    (hmotion : register = .hmove → (s.setSettings new).blanksAt clock = s.blanksAt clock)
    (previous value : UInt8) (cycles : Nat) (afterRead : Bool) {response other : Response}
    (hasks : other.asks = response.asks) :
    AsBefore new (s.actOn register previous value clock cycles afterRead response)
      ((s.setSettings new).actOn register previous value clock cycles afterRead other) := by
  have hparts := hasks
  simp only [Response.asks, Reply.asks.injEq] at hparts
  obtain ⟨hstop, hstall, hsound⟩ := hparts
  cases register with
  | vsync =>
    have hsync : (s.setSettings new).writeSync previous value clock =
        ((s.writeSync previous value clock).1, (s.writeSync previous value clock).2.setSettings new) := by
      simp only [writeSync, setSettings]
      split_ifs <;> rfl
    simp only [actOn, hsync]
    refine ⟨rfl, ?_⟩
    dsimp only
    split
    · simp only [Response.asks, hstall, hsound]
    · exact hasks
  | wsync =>
    refine ⟨rfl, ?_⟩
    simp only [actOn]
    split
    · simp only [Response.asks, hstop, hsound]
      rfl
    · exact hasks
  | colup0 | colup1 | colupf | colubk =>
    refine ⟨?_, hasks⟩
    have hlost := hcolor (by decide)
    simp only [losesColor] at hlost
    simp only [actOn, writeColor, hlost]
    rfl
  | hmove =>
    refine ⟨?_, hasks⟩
    have hblank := hmotion rfl
    simp only [blanksAt] at hblank
    simp only [actOn, strobeMotion, hblank]
    rfl
  | resp0 | resp1 =>
    exact ⟨s.strobePlayer_setSettings new _ clock, hasks⟩
  | refp0 | refp1 =>
    refine ⟨?_, hasks⟩
    simp only [actOn, writeReflection]
    split <;> rfl
  | hmm0 =>
    have harms : (s.setSettings new).armsStarField previous value clock =
        s.armsStarField previous value clock := rfl
    simp only [actOn, harms]
    split
    · exact ⟨rfl, hasks⟩
    · exact ⟨rfl, hasks⟩
  | audc0 | audc1 | audf0 | audf1 | audv0 | audv1 =>
    refine ⟨rfl, ?_⟩
    simp only [actOn, Response.asks, hstop, hstall]
  | _ => exact ⟨rfl, hasks⟩

section Writes

variable {s : Tia} {new : Settings} {cycles : Nat} {afterRead : Bool} {address : UInt16} {value : UInt8}

theorem write_setSettings_of_none (hregister : Register.ofAddress? address.toUInt8 = none)
    (hpast : (s.setSettings new).isPast cycles = s.isPast cycles) :
    AsBefore new (s.write cycles afterRead address value)
      ((s.setSettings new).write cycles afterRead address value) := by
  have hcaught : ((s.catchUp (clockOf cycles)).setSettings new).isPast cycles =
      (s.catchUp (clockOf cycles)).isPast cycles := by
    rwa [← catchUp_setSettings, isPast_catchUp, isPast_catchUp]
  simp only [write, hregister, enforceCeiling_clockOf, catchUp_setSettings]
  refine ⟨?_, ?_⟩
  · simp only [cutFrame, hcaught]
    rfl
  · simp only [cutResponse_asks, hcaught]

theorem takeEffect_setSettings {register : Register}
    (hpast : (s.setSettings new).isPast cycles = s.isPast cycles)
    (hcolor : register ∈ colorRegisters → (s.setSettings new).losesColor = s.losesColor)
    (hmotion : register = .hmove →
      (s.setSettings new).blanksAt (clockOf cycles) = s.blanksAt (clockOf cycles)) :
    AsBefore new (s.takeEffect register cycles afterRead value)
      ((s.setSettings new).takeEffect register cycles afterRead value) := by
  have hstore : (s.setSettings new).store register cycles value =
      (s.store register cycles value).setSettings new := by
    simp only [store, cutFrame, hpast]
    rfl
  have hasks : ((s.setSettings new).cutResponse cycles).asks = (s.cutResponse cycles).asks := by
    rw [cutResponse_asks, cutResponse_asks, hpast]
  have hlength : (s.store register cycles value).frame.lastLength = s.frame.lastLength :=
    s.cutFrame_lastLength cycles
  have hlost : (s.store register cycles value).losesColor = s.losesColor :=
    congrArg (fun length : Int ↦ s.settings.colorLoss && length % 2 != 0) hlength
  have hlive : ((s.store register cycles value).setSettings new).losesColor =
      (s.setSettings new).losesColor :=
    congrArg (fun length : Int ↦ new.clamped.colorLoss && length % 2 != 0) hlength
  rw [takeEffect, takeEffect, hstore]
  refine actOn_setSettings (s.store register cycles value) ?_ hmotion
    (s.objects.registers.get register) value cycles afterRead hasks
  intro hmem
  rw [hlost, hlive]
  exact hcolor hmem

/-- A release that ends the frame makes no difference between a frame that is cut off and one that has been. -/
theorem takeEffect_release (s : Tia) (afterRead : Bool) (hclear : value &&& 0x02 = 0)
    (hdue : s.frame.syncDue ≤ clockOf cycles) (hoverrun : s.frame.overrun = true) :
    (s.takeEffect .vsync cycles afterRead value).1 =
        { s with
          frame := { s.frame with drawing := false, syncDue := syncIdle }
          objects := { s.objects with registers := s.objects.registers.set .vsync value } } ∧
      (s.takeEffect .vsync cycles afterRead value).2.asks = .asks true 0 none := by
  have hlow : (value &&& 0x02 != 0) = false := by simp [hclear]
  rcases hpast : s.isPast cycles with _ | _ <;>
    simp [takeEffect, store, actOn, writeSync, cutFrame, cutResponse, Response.asks, hlow, hpast, hdue,
      hoverrun]

theorem blanksAt_catchUp (s : Tia) (clock stop : Int) :
    (s.catchUp stop).blanksAt clock =
      ((s.catchUp stop).blankPending ||
        s.settings.motionBlanks && Motion.blanksEdge (s.beam.lineCycle clock)) := by
  obtain ⟨hsettings, hstart⟩ := s.catchUp_keeps stop
  rw [blanksAt, hsettings, Beam.lineCycle, Beam.lineClock, hstart]
  rfl

theorem add_delay_of_motion (clock : Int) (cycle : Nat) :
    clock + (Register.hmove.delayOn cycle : Nat) = clock :=
  Int.add_zero clock

theorem write_blankPending (hnames : names address .hmove) :
    (s.write cycles afterRead address value).1.blankPending =
      (s.catchUp (clockOf cycles)).blanksAt (clockOf cycles) := by
  have hregister : Register.ofAddress? address.toUInt8 = some .hmove := of_decide_eq_true hnames
  rw [write_of_register s hregister, add_delay_of_motion]
  rfl

/-- A motion strobe leaves another blank behind if blanks are now switched, the strobe asks for one and none is
pending yet. -/
theorem blanksAt_setSettings_iff :
    ((s.setSettings new).catchUp (clockOf cycles)).blanksAt (clockOf cycles) =
        (s.catchUp (clockOf cycles)).blanksAt (clockOf cycles) ↔
      ¬ (new.motionBlanks ≠ s.settings.motionBlanks ∧
        Motion.blanksEdge (s.beam.lineCycle (clockOf cycles)) ∧
        ¬ (s.catchUp (clockOf cycles)).blankPending) := by
  have hpending : ((s.setSettings new).catchUp (clockOf cycles)).blankPending =
      (s.catchUp (clockOf cycles)).blankPending := by
    rw [catchUp_setSettings]
    rfl
  have hsettings : (s.setSettings new).settings.motionBlanks = new.motionBlanks := rfl
  have hbeam : (s.setSettings new).beam = s.beam := rfl
  rw [blanksAt_catchUp, blanksAt_catchUp, hpending, hsettings, hbeam]
  cases (s.catchUp (clockOf cycles)).blankPending <;> cases new.motionBlanks <;>
    cases s.settings.motionBlanks <;> cases Motion.blanksEdge (s.beam.lineCycle (clockOf cycles)) <;> decide

/-- A write goes as it would have gone, unless it finds out. -/
theorem write_setSettings (h : ¬ s.Heeds new (.access (.write cycles afterRead address value))) :
    AsBefore new (s.write cycles afterRead address value)
      ((s.setSettings new).write cycles afterRead address value) := by
  obtain ⟨hceiling, hcolor, hmotion⟩ : ¬ _ ∧ ¬ _ ∧ ¬ _ := by
    simpa only [Heeds, not_or] using h
  rcases hregister : Register.ofAddress? address.toUInt8 with _ | register
  · have hkept : ¬ (s.frame.overrun ∧ s.releasesSync cycles address value) := by
      simp [releasesSync, names, hregister]
    exact write_setSettings_of_none hregister (not_not.mp fun hpast ↦ hceiling ⟨hpast, hkept⟩)
  · let clock := clockOf cycles + register.delayOn (s.beam.lineCycle (clockOf cycles))
    have hwrite : (s.setSettings new).write cycles afterRead address value =
        ((s.catchUp clock).setSettings new).takeEffect register cycles afterRead value := by
      rw [write_of_register _ hregister, catchUp_setSettings]
      rfl
    rw [hwrite, write_of_register s hregister]
    by_cases hpast : (s.setSettings new).isPast cycles = s.isPast cycles
    · refine takeEffect_setSettings ?_ ?_ ?_
      · rwa [← catchUp_setSettings, isPast_catchUp, isPast_catchUp]
      · intro hmem
        rw [← catchUp_setSettings, catchUp_losesColor, catchUp_losesColor]
        exact not_not.mp fun hlost ↦ hcolor ⟨⟨register, hmem, by simp [names, hregister]⟩, hlost⟩
      · rintro rfl
        rw [← catchUp_setSettings, add_delay_of_motion]
        exact blanksAt_setSettings_iff.mpr fun hblank ↦ hmotion ⟨by simp [names, hregister], hblank⟩
    · obtain ⟨hoverrun, hreleases⟩ : s.frame.overrun ∧ s.releasesSync cycles address value :=
        not_not.mp fun hkept ↦ hceiling ⟨hpast, hkept⟩
      simp only [releasesSync, names, hregister, Option.some.injEq, Bool.and_eq_true, decide_eq_true_eq,
        beq_iff_eq] at hreleases
      obtain ⟨⟨rfl, hclear⟩, hdue⟩ := hreleases
      have hframe : (s.catchUp clock).frame = s.frame := s.catchUp_frame clock
      have hends := (s.catchUp clock).takeEffect_release afterRead hclear (hframe ▸ hdue)
        (hframe ▸ hoverrun)
      have hlive := ((s.catchUp clock).setSettings new).takeEffect_release afterRead hclear
        (hframe ▸ hdue) (hframe ▸ hoverrun)
      constructor
      · rw [hends.1, hlive.1]
        rfl
      · rw [hends.2, hlive.2]

/-- A write that finds out answers differently or leaves another chip. -/
theorem not_heeds_of_write
    (h : AsBefore new (s.write cycles afterRead address value)
      ((s.setSettings new).write cycles afterRead address value)) :
    ¬ s.Heeds new (.access (.write cycles afterRead address value)) := by
  rintro (⟨hpast, hkept⟩ | ⟨⟨register, hmem, hnames⟩, hlost⟩ | ⟨hnames, hblank⟩)
  · have hends := s.write_ends cycles afterRead address value
    have hlive := (s.setSettings new).write_ends cycles afterRead address value
    have hoverrun : (s.frame.overrun || (s.setSettings new).isPast cycles) =
        (s.frame.overrun || s.isPast cycles) :=
      hlive.overrun.symm.trans ((congrArg (·.frame.overrun) h.chip).trans hends.overrun)
    have hstop : ((s.setSettings new).isPast cycles || s.releasesSync cycles address value) =
        (s.isPast cycles || s.releasesSync cycles address value) := by
      have hasks := h.asks
      simp only [Response.asks, Reply.asks.injEq] at hasks
      exact hlive.stop.symm.trans (hasks.1.trans hends.stop)
    refine hkept ⟨?_, ?_⟩
    · refine not_not.mp fun hclear ↦ hpast ?_
      simpa [Bool.eq_false_iff.mpr hclear] using hoverrun
    · refine not_not.mp fun hclear ↦ hpast ?_
      simpa [Bool.eq_false_iff.mpr hclear] using hstop
  · have hcolor : tinted (s.setSettings new).losesColor value = tinted s.losesColor value := by
      rw [← write_color _ hmem hnames cycles afterRead, ← write_color _ hmem hnames cycles afterRead]
      exact congrArg (·.color register) h.chip
    have hmark := marked_tinted (s.setSettings new).losesColor value
    rw [hcolor] at hmark
    exact hlost (hmark.unique (marked_tinted s.losesColor value))
  · refine blanksAt_setSettings_iff.mp ?_ hblank
    rw [← write_blankPending hnames, ← write_blankPending hnames, h.chip]
    rfl

end Writes

theorem RegisterFile.set_get (file : RegisterFile) (register : Register) :
    file.set register (file.get register) = file := by
  simp [set, get]

/-- Colours that are marked as they should be stay as they are. -/
theorem foldl_tint_of_marked (file : RegisterFile) {odd : Bool} {registers : List Register}
    (h : ∀ register ∈ registers, Marked odd (file.get register)) :
    registers.foldl (fun file register ↦
      file.set register (if odd then file.get register ||| 0x01 else file.get register &&& 0xFE)) file =
      file := by
  induction registers with
  | nil => rfl
  | cons register rest ih =>
    rw [List.foldl_cons, tint_eq_self_iff.mpr (h register List.mem_cons_self), RegisterFile.set_get]
    exact ih fun other hmem ↦ h other (List.mem_cons_of_mem _ hmem)

theorem beginFrame_setSettings {s : Tia} {new : Settings} {carry : Int}
    (h : ¬ s.Heeds new (.beginFrame carry)) :
    (s.setSettings new).beginFrame carry = (s.beginFrame carry).setSettings new := by
  obtain ⟨hy, hheight, hcolors⟩ : ¬ _ ∧ ¬ _ ∧ ¬ _ := by
    simpa only [Heeds, not_or] using h
  let marked := colorRegisters.foldl (fun file register ↦
    file.set register (if s.frame.lastLength % 2 != 0 then file.get register ||| 0x01
      else file.get register &&& 0xFE)) s.objects.registers
  have hregisters : (if new.clamped.colorLoss then marked else s.objects.registers) =
      if s.settings.colorLoss then marked else s.objects.registers := by
    by_cases hloss : new.colorLoss = s.settings.colorLoss
    · rw [← hloss]
      rfl
    · have hmarked : ∀ register ∈ colorRegisters,
          Marked (s.frame.lastLength % 2 != 0) (s.objects.registers.get register) := by
        intro register hmem
        exact not_not.mp fun hunmarked ↦ hcolors ⟨hloss, register, hmem, hunmarked⟩
      have hsame : marked = s.objects.registers := foldl_tint_of_marked _ hmarked
      rw [hsame, ite_self, ite_self]
  have hplace (beam : Beam) : beam.placeWindow new.clamped = beam.placeWindow s.settings := by
    have hstart : new.clamped.yStart = s.settings.yStart := not_not.mp hy
    rw [Beam.placeWindow, Beam.placeWindow, hstart, not_not.mp hheight]
  simp only [beginFrame, setSettings, hplace]
  exact congrArg (fun registers ↦ ({ s.beginFrame carry with
    settings := new.clamped
    objects := { s.objects with registers := registers } } : Tia)) hregisters

/-- A frame that begins finds out by its window or by a colour. -/
theorem not_heeds_of_beginFrame {s : Tia} {new : Settings} {carry : Int}
    (h : (s.setSettings new).beginFrame carry = (s.beginFrame carry).setSettings new) :
    ¬ s.Heeds new (.beginFrame carry) := by
  have hbegins : (-carry + lineClocks * new.yStart.toNat : Int) =
      -carry + lineClocks * s.settings.yStart.toNat :=
    congrArg (·.beam.displayStart) h
  have hends : (-carry + lineClocks * (new.yStart.toNat + new.clamped.height.toNat) : Int) =
      -carry + lineClocks * (s.settings.yStart.toNat + s.settings.height.toNat) :=
    congrArg (·.beam.displayStop) h
  simp only [lineClocks] at hbegins hends
  rintro (hy | hheight | ⟨hloss, register, hmem, hunmarked⟩)
  · exact hy (UInt16.toNat_inj.mp (by omega))
  · exact hheight (UInt16.toNat_inj.mp (by omega))
  · have hcolor : ((s.setSettings new).beginFrame carry).color register =
        (s.beginFrame carry).color register :=
      congrArg (·.color register) h
    rw [beginFrame_color _ carry hmem, beginFrame_color _ carry hmem] at hcolor
    refine hunmarked (tint_eq_self_iff.mp ?_)
    rcases hnew : new.colorLoss with _ | _
    · have hold : s.settings.colorLoss = true := by simpa [hnew] using hloss
      rw [hold, show (s.setSettings new).settings.colorLoss = false from hnew] at hcolor
      exact hcolor.symm
    · have hold : s.settings.colorLoss = false := by simpa [hnew] using hloss
      rw [hold, show (s.setSettings new).settings.colorLoss = true from hnew] at hcolor
      exact hcolor

/-! ## Runs -/

theorem finishFrame_setSettings (s : Tia) (new : Settings) (cycles : Nat) :
    (s.setSettings new).finishFrame cycles =
      ((s.finishFrame cycles).1, (s.finishFrame cycles).2.setSettings new) := by
  have hframe : (s.setSettings new).frame = s.frame := rfl
  simp only [finishFrame, hframe]
  split <;> rfl

/-- An operation answers and does the same, unless it finds out. -/
theorem operate_setSettings_iff (s : Tia) (new : Settings) {operation : Operation}
    (h : operation.betweenResets) :
    ((s.setSettings new).reply operation = s.reply operation ∧
        (s.setSettings new).operate operation = (s.operate operation).setSettings new) ↔
      ¬ s.Heeds new operation := by
  cases operation with
  | access request =>
    cases request with
    | read cycles dataBus ports address =>
      refine iff_of_true ?_ not_false
      simp only [reply, operate, perform, read, catchUp_setSettings, and_true]
      rfl
    | write cycles afterRead address value =>
      exact ⟨fun hsame ↦ not_heeds_of_write ⟨hsame.2, hsame.1⟩,
        fun hkept ↦ ⟨(write_setSettings hkept).asks, (write_setSettings hkept).chip⟩⟩
  | beginFrame carry =>
    exact ⟨fun hsame ↦ not_heeds_of_beginFrame hsame.2,
      fun hkept ↦ ⟨rfl, beginFrame_setSettings hkept⟩⟩
  | finishFrame cycles =>
    refine iff_of_true ?_ not_false
    simp only [reply, operate, finishFrame_setSettings, and_self]
  | rebase cycles => exact iff_of_true ⟨rfl, rfl⟩ not_false
  | setSettings settings => exact absurd h Bool.false_ne_true
  | reset cycles => exact absurd h Bool.false_ne_true

/-- A run goes on as if the settings had been left alone if and only if none of its operations finds out. -/
theorem trace_setSettings_iff (s : Tia) (new : Settings) {operations : List Operation}
    (hbetween : ∀ operation ∈ operations, operation.betweenResets) :
    (s.setSettings new).trace operations =
        (s.trace operations).map (fun entry ↦ (entry.1, entry.2.setSettings new)) ↔
      ∀ count (h : count < operations.length),
        ¬ (s.run (operations.take count)).Heeds new operations[count] := by
  induction operations generalizing s with
  | nil => simp [trace]
  | cons operation rest ih =>
    have hfirst := s.operate_setSettings_iff new (hbetween operation List.mem_cons_self)
    have hrest := ih (s.operate operation) fun later hmem ↦ hbetween later (List.mem_cons_of_mem _ hmem)
    rw [trace, trace, List.map_cons, List.cons.injEq, Prod.mk.injEq, hfirst]
    constructor
    · rintro ⟨hsame, htrace⟩ count hcount
      rw [(hfirst.mpr hsame).2, hrest] at htrace
      cases count with
      | zero => exact hsame
      | succ count => exact htrace count (Nat.lt_of_succ_lt_succ hcount)
    · intro hall
      have hsame := hall 0 (Nat.succ_pos _)
      refine ⟨hsame, ?_⟩
      rw [(hfirst.mpr hsame).2, hrest]
      exact fun count hcount ↦ hall (count + 1) (Nat.succ_lt_succ hcount)

/-- A frame with a lower ceiling and without blanks: the background is coloured, the chip is read and the frame
ends before the ceiling. -/
theorem trace_setSettings_iff_of_short :
    let s := (Tia.new {}).beginFrame 0
    let new : Settings := { ceiling := 100, motionBlanks := false }
    let operations : List Operation :=
      [.access (.write 1 false 0x09 0x1E), .access (.read 10 0 {} 0x02), .rebase 5, .finishFrame 40,
        .beginFrame 0]
    (∀ operation ∈ operations, operation.betweenResets) ∧
      (s.setSettings new).trace operations =
        (s.trace operations).map (fun entry ↦ (entry.1, entry.2.setSettings new)) := by
  intro s new operations
  have hbetween : ∀ operation ∈ operations, operation.betweenResets := by
    simp [operations, Operation.betweenResets]
  refine ⟨hbetween, (trace_setSettings_iff s new hbetween).mpr ?_⟩
  decide +kernel

/-- At once: a ceiling stops a write, switched-off blanks leave a motion strobe without one, and a colour is
lost.  Without the other settings none of this happens. -/
theorem setSettings_heeded :
    let s := (Tia.new {}).beginFrame 0
    let odd := (Tia.new {}).run [.finishFrame 76, .beginFrame 0]
    let paint : Operation := .access (.write 76 false 0x09 0x1E)
    let strobe : Operation := .access (.write 1 false 0x2A 0)
    (s.setSettings { ceiling := 0 }).trace [paint] ≠
        (s.trace [paint]).map (fun entry ↦ (entry.1, entry.2.setSettings { ceiling := 0 })) ∧
      (s.setSettings { ceiling := 0 }).reply paint = .asks true 0 none ∧
      s.reply paint = .asks false 0 none ∧
      ((s.setSettings { motionBlanks := false }).operate strobe).blankPending = false ∧
      (s.operate strobe).blankPending = true ∧
      ((odd.setSettings { colorLoss := true }).operate paint).color .colubk = 0x1F ∧
      (odd.operate paint).color .colubk = 0x1E := by
  intro s odd paint strobe
  refine ⟨fun hsame ↦ ?_, ?_⟩
  · have hreply := congrArg (·.map Prod.fst) hsame
    revert hreply
    decide +kernel
  · decide +kernel

end Vcs.Tia
