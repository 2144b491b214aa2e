import Mathlib.Order.Bounds.Basic
import Vcs.Proofs.Tia.Access
import Vcs.Proofs.Tia.Rebase

/-!
# What Ends a Frame

Two things end a frame, and both are writes: any write past the scanline ceiling cuts it off, and a write that
releases vertical sync completes it.  A write that ends the frame asks for a stop, and no other write does.
The only write that takes time is the one that waits for the next scanline; while frames begin on whole
processor cycles it ends on the first cycle that is at the start of a line.
-/

namespace Vcs.Tia

theorem sweep_keeps (s : Tia) (clock : Int) :
    (s.sweep clock).settings = s.settings ∧
      (s.sweep clock).beam.frameStart = s.beam.frameStart := by
  constructor
  · unfold sweep drawStretch blankEdge drawSegment
    dsimp only
    split_ifs <;> rfl
  · obtain ⟨drawn, hbeam⟩ := s.sweep_beam clock
    rw [hbeam]
    unfold Beam.advance
    split <;> rfl

theorem catchUp_keeps (s : Tia) (clock : Int) :
    (s.catchUp clock).settings = s.settings ∧
      (s.catchUp clock).beam.frameStart = s.beam.frameStart :=
  ⟨catchUp_of_sweep (·.settings) (fun s clock ↦ (s.sweep_keeps clock).1) s clock,
    catchUp_of_sweep (·.beam.frameStart) (fun s clock ↦ (s.sweep_keeps clock).2) s clock⟩

theorem scanline_catchUp (s : Tia) (clock stop : Int) :
    (s.catchUp stop).beam.scanline clock = s.beam.scanline clock := by
  rw [Beam.scanline, Beam.scanline, (s.catchUp_keeps stop).2]

/-- Whether a processor cycle is past the scanline ceiling. -/
def isPast (s : Tia) (cycles : Nat) : Bool :=
  (s.settings.ceiling.toNat : Int) < s.scanlines cycles

/-- Whether a write to an address names a register. -/
def names (address : UInt16) (register : Register) : Bool :=
  Register.ofAddress? address.toUInt8 = some register

/-- Whether a write releases vertical sync when it is due. -/
def releasesSync (s : Tia) (cycles : Nat) (address : UInt16) (value : UInt8) : Bool :=
  names address .vsync && value &&& 0x02 == 0 && s.frame.syncDue ≤ clockOf cycles

/-- What a write that is past the ceiling, that releases sync or that takes `stall` cycles makes of the frame
and asks of the processor. -/
structure Ends (s : Tia) (past released : Bool) (stall : Nat) (after : Tia × Response) : Prop where
  settings : after.1.settings = s.settings
  frameStart : after.1.beam.frameStart = s.beam.frameStart
  drawing : after.1.frame.drawing = (s.frame.drawing && !past && !released)
  overrun : after.1.frame.overrun = (s.frame.overrun || past)
  stop : after.2.stop = (past || released)
  stall : after.2.stall = stall

theorem enforceCeiling_ends (s : Tia) (clock : Int) :
    s.Ends ((s.settings.ceiling.toNat : Int) < s.beam.scanline clock) false 0
      (s.enforceCeiling clock) := by
  by_cases hpast : (s.settings.ceiling.toNat : Int) < s.beam.scanline clock
  · simp only [enforceCeiling, hpast, decide_true]
    constructor <;> simp
  · simp only [enforceCeiling, hpast, decide_false]
    constructor <;> simp

theorem actOn_frame (s : Tia) {register : Register} (h : register ≠ .vsync) (previous value : UInt8)
    (clock : Int) (cycles : Nat) (afterRead : Bool) (response : Response) :
    (s.actOn register previous value clock cycles afterRead response).1.frame = s.frame := by
  cases register with
  | vsync => exact absurd rfl h
  | resp0 | resp1 => exact strobePlayer_frame s _ clock
  | refp0 | refp1 =>
    simp only [actOn, writeReflection]
    split <;> rfl
  | hmm0 =>
    simp only [actOn]
    split <;> rfl
  | _ => rfl

theorem actOn_response (s : Tia) {register : Register} (hsync : register ≠ .vsync)
    (hwait : register ≠ .wsync) (previous value : UInt8) (clock : Int) (cycles : Nat)
    (afterRead : Bool) (response : Response) :
    let after := s.actOn register previous value clock cycles afterRead response
    after.2.stop = response.stop ∧ after.2.stall = response.stall := by
  cases register with
  | vsync => exact absurd rfl hsync
  | wsync => exact absurd rfl hwait
  | hmm0 =>
    simp only [actOn]
    split <;> exact ⟨rfl, rfl⟩
  | _ => exact ⟨rfl, rfl⟩

theorem actOn_keeps (s : Tia) (register : Register) (previous value : UInt8) (clock : Int)
    (cycles : Nat) (afterRead : Bool) (response : Response) :
    let after := (s.actOn register previous value clock cycles afterRead response).1
    after.settings = s.settings ∧ after.beam.frameStart = s.beam.frameStart := by
  rcases s.actOn_screen register previous value clock cycles afterRead response with
    hscreen | ⟨-, hscreen⟩
  · exact ⟨congrArg Screen.settings hscreen, congrArg (·.beam.frameStart) hscreen⟩
  · obtain ⟨hsettings, hstart⟩ := s.catchUp_keeps (clock + 11)
    exact ⟨(congrArg Screen.settings hscreen).trans hsettings,
      (congrArg (·.beam.frameStart) hscreen).trans hstart⟩

/-- Releasing sync when it is due ends the frame. -/
theorem writeSync_frame (s : Tia) (previous value : UInt8) (clock : Int) :
    let released := value &&& 0x02 == 0 && s.frame.syncDue ≤ clock
    let after := s.writeSync previous value clock
    after.1 = released ∧ after.2.frame.drawing = (s.frame.drawing && !released) ∧
      after.2.frame.overrun = s.frame.overrun := by
  intro released after
  simp only [released, after, writeSync]
  rcases hraised : value &&& 0x02 == 0 with _ | _
  · have hset : (value &&& 0x02 != 0) = true := by simpa [bne] using hraised
    simp only [hset, if_true, Bool.false_and, Bool.not_false, Bool.and_true, true_and]
    split_ifs <;> exact ⟨rfl, rfl⟩
  · have hset : (value &&& 0x02 != 0) = false := by simpa [bne] using hraised
    simp only [hset, Bool.false_and, Bool.false_eq_true, if_false, Bool.true_and]
    by_cases hdue : s.frame.syncDue ≤ clock
    · simp [hdue]
    · simp [hdue]

/-- What a register is for ends the frame if it is vertical sync and takes time if it waits for the line. -/
theorem actOn_ends {s t : Tia} {past : Bool} {response : Response}
    (h : s.Ends past false 0 (t, response)) (register : Register) (previous value : UInt8)
    (clock : Int) (cycles : Nat) (afterRead : Bool) :
    s.Ends past (register = .vsync && value &&& 0x02 == 0 && t.frame.syncDue ≤ clock)
      (if register = .wsync && afterRead then t.cyclesToLineStart cycles else 0)
      (t.actOn register previous value clock cycles afterRead response) := by
  obtain ⟨hsettings, hstart, hdrawing, hoverrun, hstop, hstall⟩ := h
  simp only [Bool.not_false, Bool.and_true, Bool.or_false] at hdrawing hstop
  have hkeeps := t.actOn_keeps register previous value clock cycles afterRead response
  have hsame := hkeeps.1.trans hsettings
  have hplace := hkeeps.2.trans hstart
  by_cases hsync : register = .vsync
  · subst hsync
    obtain ⟨hreleased, hends, hkept⟩ := t.writeSync_frame previous value clock
    simp only [decide_true, Bool.true_and, reduceCtorEq, decide_false, Bool.false_and,
      Bool.false_eq_true, if_false]
    refine ⟨hsame, hplace, hends.trans (congrArg (· && _) hdrawing), hkept.trans hoverrun, ?_, ?_⟩
    · simp only [actOn, hreleased]
      split
      · next hdue => rw [hdue, Bool.or_true]
      · next hdue => rw [Bool.eq_false_iff.mpr hdue, Bool.or_false, hstop]
    · simp only [actOn]
      split <;> exact hstall
  · have hframe := t.actOn_frame hsync previous value clock cycles afterRead response
    simp only [hsync, decide_false, Bool.false_and]
    by_cases hwait : register = .wsync
    · subst hwait
      refine ⟨hsame, hplace, by simp [hframe, hdrawing], by rw [hframe, hoverrun], ?_, ?_⟩
      · simp only [actOn, Bool.or_false]
        split <;> exact hstop
      · simp only [actOn, decide_true, Bool.true_and]
        split
        · rfl
        · exact hstall
    · obtain ⟨hstops, hstalls⟩ :=
        t.actOn_response hsync hwait previous value clock cycles afterRead response
      simp only [hwait, decide_false, Bool.false_and, Bool.false_eq_true, if_false]
      exact ⟨hsame, hplace, by simp [hframe, hdrawing], by rw [hframe, hoverrun],
        by rw [hstops, hstop, Bool.or_false], hstalls.trans hstall⟩

/-- What a write does to the frame. -/
theorem write_ends (s : Tia) (cycles : Nat) (afterRead : Bool) (address : UInt16) (value : UInt8) :
    s.Ends (s.isPast cycles) (s.releasesSync cycles address value)
      (if names address .wsync && afterRead then s.cyclesToLineStart cycles else 0)
      (s.write cycles afterRead address value) := by
  have hcaught (clock : Int) : s.Ends (s.isPast cycles) false 0
      ((s.catchUp clock).enforceCeiling (clockOf cycles)) := by
    obtain ⟨hsettings, hstart⟩ := s.catchUp_keeps clock
    have hends := enforceCeiling_ends (s.catchUp clock) (clockOf cycles)
    rw [scanline_catchUp, hsettings] at hends
    exact ⟨hends.settings.trans hsettings, hends.frameStart.trans hstart,
      by rw [hends.drawing, catchUp_frame]; rfl, by rw [hends.overrun, catchUp_frame]; rfl,
      hends.stop, hends.stall⟩
  have hdue (clock : Int) : ((s.catchUp clock).enforceCeiling (clockOf cycles)).1.frame.syncDue =
      s.frame.syncDue := by
    rw [enforceCeiling_syncDue, catchUp_frame]
  rcases hregister : Register.ofAddress? address.toUInt8 with _ | register
  · simpa only [write, releasesSync, names, hregister, reduceCtorEq, decide_false, Bool.false_and,
      Bool.false_eq_true, if_false] using hcaught (clockOf cycles)
  · let clock := clockOf cycles + register.delayOn (s.beam.lineCycle (clockOf cycles))
    let stored := ((s.catchUp clock).enforceCeiling (clockOf cycles)).1.mapObjects fun o ↦
      { o with registers := o.registers.set register value }
    have hcut := hcaught clock
    have hstored : s.Ends (s.isPast cycles) false 0
        (stored, ((s.catchUp clock).enforceCeiling (clockOf cycles)).2) :=
      ⟨hcut.settings, hcut.frameStart, hcut.drawing, hcut.overrun, hcut.stop, hcut.stall⟩
    have hline : stored.cyclesToLineStart cycles = s.cyclesToLineStart cycles := by
      rw [cyclesToLineStart, cyclesToLineStart, hstored.frameStart]
    have hends := actOn_ends hstored register
      (((s.catchUp clock).enforceCeiling (clockOf cycles)).1.objects.registers.get register) value
      (clockOf cycles) cycles afterRead
    have hsync : stored.frame.syncDue = s.frame.syncDue := hdue clock
    rw [hline, hsync] at hends
    simpa only [write, releasesSync, names, hregister, Option.some.injEq] using hends

theorem lineClock_add (s : Tia) (cycles count : Nat) :
    s.lineClock (cycles + count) = (s.lineClock cycles + 3 * count) % 228 := by
  simp only [lineClock, Beam.lineClock, clockOf, clocksPerCycle, lineClocks]
  omega

theorem lineClock_dvd {s : Tia} (h : 3 ∣ s.beam.frameStart) (cycles : Nat) :
    3 ∣ s.lineClock cycles := by
  simp only [lineClock, Beam.lineClock, clockOf, clocksPerCycle, lineClocks]
  omega

theorem cyclesToLineStart_lt (s : Tia) (cycles : Nat) : s.cyclesToLineStart cycles < 76 := by
  simp only [cyclesToLineStart, lineCycles]
  split <;> omega

/-- Waiting for the line ends on the first cycle that is at the start of one.  The chip divides the start of
the frame by three, which leaves nothing over. -/
theorem cyclesToLineStart_isLeast {s : Tia} (h : 3 ∣ s.beam.frameStart) (cycles : Nat) :
    IsLeast {cycle | cycles ≤ cycle ∧ s.lineClock cycle = 0} (cycles + s.cyclesToLineStart cycles) ∧
      s.cyclesToLineStart cycles < 76 := by
  obtain ⟨start, hstart⟩ := h
  have hthird : s.beam.frameStart / 3 = start := by omega
  have hclock (cycle : Nat) : s.lineClock cycle = 0 ↔ ((cycle : Int) - start) % 76 = 0 := by
    simp only [lineClock, Beam.lineClock, clockOf, clocksPerCycle, lineClocks, hstart]
    omega
  have hwait : (s.cyclesToLineStart cycles : Int) = (start - cycles) % 76 := by
    have hquotient : s.beam.frameStart / (clocksPerCycle : Nat) = start := hthird
    simp only [cyclesToLineStart, lineCycles, hquotient]
    split <;> omega
  refine ⟨⟨⟨Nat.le_add_right _ _, (hclock _).mpr (by omega)⟩, ?_⟩, s.cyclesToLineStart_lt cycles⟩
  rintro cycle ⟨hlater, hzero⟩
  have hmultiple := (hclock cycle).mp hzero
  omega

end Vcs.Tia
