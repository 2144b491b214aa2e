import Vcs.Proofs.Tia.Access

/-!
# The Chip under a Restarted Counter

Stamps of the chip are relative to the processor's cycle counter, so they move when the counter is restarted.
Nothing that the chip draws, answers or asks for shows it: every access at a cycle does to the chip what the
access at the cycle moved back does to the chip moved back.  One stamp is no stamp: while no vertical sync
is in progress its clock is a constant, which does not move but which no counter within bounds reaches.
-/

namespace Vcs.Tia

/-- The chip under a counter that is `count` cycles behind, with sync due at some clock of that counter. -/
def shifted (s : Tia) (count : Nat) (due : Int) : Tia :=
  { s.rebase count with frame := { s.frame with syncDue := due } }

/-- Clocks at which sync is due in a chip and in the one moved back. -/
def SyncShifted (count : Nat) (due moved : Int) : Prop :=
  moved = due - clockOf count ∨ due = syncIdle ∧ moved = syncIdle

theorem clockOf_sub {count cycles : Nat} (h : count ≤ cycles) :
    clockOf (cycles - count) = clockOf cycles - clockOf count := by
  simp only [clockOf, clocksPerCycle]
  omega

theorem clockOf_nonneg (cycles : Nat) : 0 ≤ clockOf cycles :=
  Int.natCast_nonneg _

variable (s : Tia) (count : Nat) (due : Int)

@[simp]
theorem scanline_rebase (beam : Beam) (clock clocks : Int) :
    (beam.rebase clocks).scanline (clock - clocks) = beam.scanline clock := by
  have hdistance : clock - clocks - (beam.frameStart - clocks) = clock - beam.frameStart := by omega
  simp only [Beam.scanline, Beam.rebase, hdistance]

@[simp]
theorem lineClock_rebase (beam : Beam) (clock clocks : Int) :
    (beam.rebase clocks).lineClock (clock - clocks) = beam.lineClock clock := by
  have hdistance : clock - clocks - (beam.frameStart - clocks) = clock - beam.frameStart := by omega
  simp only [Beam.lineClock, Beam.rebase, hdistance]

@[simp]
theorem lineCycle_rebase (beam : Beam) (clock clocks : Int) :
    (beam.rebase clocks).lineCycle (clock - clocks) = beam.lineCycle clock := by
  simp only [Beam.lineCycle, lineClock_rebase]

theorem owes_rebase (beam : Beam) (clock clocks : Int) :
    (beam.rebase clocks).owes (clock - clocks) = beam.owes clock := by
  have hstart : beam.displayStart - clocks ≤ clock - clocks ↔ beam.displayStart ≤ clock := by omega
  have hdrawn : beam.drawnTo - clocks < clock - clocks ↔ beam.drawnTo < clock := by omega
  have hstop : beam.drawnTo - clocks < beam.displayStop - clocks ↔
      beam.drawnTo < beam.displayStop := by omega
  simp only [Beam.owes, Beam.rebase, hstart, hdrawn, hstop]

theorem advance_rebase (beam : Beam) (clock clocks : Int) :
    (beam.rebase clocks).advance (clock - clocks) =
      ((beam.advance clock).1, (beam.advance clock).2.rebase clocks) := by
  by_cases h : beam.drawnTo + beam.lineLeft < clock
  · have hmoved : (beam.rebase clocks).drawnTo + (beam.rebase clocks).lineLeft < clock - clocks := by
      simp only [Beam.rebase]
      omega
    rw [Beam.advance, Beam.advance, if_pos h, if_pos hmoved]
    simp only [Beam.rebase, Prod.mk.injEq, Beam.mk.injEq, true_and, and_true]
    omega
  · have hmoved :
        ¬ (beam.rebase clocks).drawnTo + (beam.rebase clocks).lineLeft < clock - clocks := by
      simp only [Beam.rebase]
      omega
    have hcount : clock - clocks - (beam.drawnTo - clocks) = clock - beam.drawnTo := by omega
    rw [Beam.advance, Beam.advance, if_neg h, if_neg hmoved]
    simp only [Beam.rebase, hcount]

@[simp]
theorem shifted_beam : (s.shifted count due).beam = s.beam.rebase (clockOf count) := rfl

/-- The stamp of the last motion keeps its distance. -/
theorem sinceMotion_shifted (clock : Int) :
    clock - clockOf count - (s.shifted count due).lastMotion = clock - s.lastMotion := by
  simp only [shifted, rebase]
  omega

theorem drawSegment_shifted (column width : Nat) :
    (s.shifted count due).drawSegment column width = (s.drawSegment column width).shifted count due := by
  by_cases hblanked : s.objects.registers.test .vblank 0x02
  · have hmoved : (s.shifted count due).objects.registers.test .vblank 0x02 := hblanked
    simp only [drawSegment, if_pos hblanked, if_pos hmoved]
    rfl
  · have hmoved : ¬ (s.shifted count due).objects.registers.test .vblank 0x02 := hblanked
    simp only [drawSegment, if_neg hblanked, if_neg hmoved]
    rfl

theorem blankEdge_shifted (pointer start width : Nat) :
    (s.shifted count due).blankEdge pointer start width =
      (s.blankEdge pointer start width).shifted count due := by
  by_cases hpending : s.blankPending && start < edgeClocks
  · have hmoved : (s.shifted count due).blankPending && start < edgeClocks := hpending
    rw [blankEdge, blankEdge, if_pos hpending, if_pos hmoved]
    rfl
  · have hmoved : ¬ ((s.shifted count due).blankPending && start < edgeClocks) := hpending
    rw [blankEdge, blankEdge, if_neg hpending, if_neg hmoved]

theorem drawStretch_shifted (start width : Nat) :
    (s.shifted count due).drawStretch start width =
      (s.drawStretch start width).shifted count due := by
  simp only [drawStretch, drawSegment_shifted, blankEdge_shifted]
  rfl

theorem sweep_shifted (clock : Int) :
    (s.shifted count due).sweep (clock - clockOf count) = (s.sweep clock).shifted count due := by
  have hdraw (start width : Nat) (beam : Beam) :
      { s.shifted count due with beam := beam.rebase (clockOf count) }.drawStretch start width =
        ({ s with beam := beam }.drawStretch start width).shifted count due :=
    drawStretch_shifted { s with beam := beam } count due start width
  have hend (t : Tia) :
      (if (t.shifted count due).beam.lineLeft = lineClocks then
        { t.shifted count due with objects := (t.shifted count due).objects.endLine }
      else t.shifted count due) =
        (if t.beam.lineLeft = lineClocks then { t with objects := t.objects.endLine }
        else t).shifted count due := by
    by_cases hleft : t.beam.lineLeft = lineClocks
    · have hmoved : (t.shifted count due).beam.lineLeft = lineClocks := hleft
      rw [if_pos hleft, if_pos hmoved]
      rfl
    · have hmoved : (t.shifted count due).beam.lineLeft ≠ lineClocks := hleft
      rw [if_neg hleft, if_neg hmoved]
  simp only [sweep, shifted_beam, advance_rebase, hdraw]
  exact hend _

theorem sweepTo_shifted (clock : Int) :
    (s.shifted count due).sweepTo (clock - clockOf count) = (s.sweepTo clock).shifted count due := by
  have hdrawn (t : Tia) :
      (t.shifted count due).beam.drawnTo < clock - clockOf count ↔ t.beam.drawnTo < clock := by
    simp only [shifted, rebase, Beam.rebase]
    omega
  fun_induction sweepTo s clock with
  | case1 s next hlt ih =>
    rw [sweepTo, sweep_shifted, if_pos ((hdrawn _).mpr hlt), ih]
  | case2 s next hge =>
    rw [sweepTo, sweep_shifted, if_neg ((hdrawn _).not.mpr hge)]

theorem catchUp_shifted (clock : Int) :
    (s.shifted count due).catchUp (clock - clockOf count) = (s.catchUp clock).shifted count due := by
  have hstop : min (clock - clockOf count) (s.shifted count due).beam.displayStop =
      min clock s.beam.displayStop - clockOf count := by
    simp only [shifted, rebase, Beam.rebase]
    omega
  rw [catchUp, catchUp, hstop, shifted_beam, owes_rebase, sweepTo_shifted]
  exact (apply_ite (fun t : Tia ↦ t.shifted count due) _ _ _).symm

theorem sweep_frame (clock : Int) : (s.sweep clock).frame = s.frame := by
  unfold sweep drawStretch blankEdge drawSegment
  dsimp only
  split_ifs <;> rfl

/-- What no stretch of drawing changes stays as it is when the beam catches up. -/
theorem catchUp_of_sweep {α : Type} (look : Tia → α)
    (h : ∀ (s : Tia) (clock : Int), look (s.sweep clock) = look s) (s : Tia) (clock : Int) :
    look (s.catchUp clock) = look s := by
  have hsweep (stop : Int) : look (s.sweepTo stop) = look s := by
    fun_induction sweepTo s stop with
    | case1 s next hlt ih => exact ih.trans (h s stop)
    | case2 s next hge => exact h s stop
  unfold catchUp
  split
  · exact hsweep _
  · rfl

theorem catchUp_frame (clock : Int) : (s.catchUp clock).frame = s.frame :=
  catchUp_of_sweep (·.frame) sweep_frame s clock

theorem isCharged_shifted {cycles : Nat} (h : count ≤ cycles) (resistance : Ohms) :
    (s.shifted count due).isCharged resistance (cycles - count) = s.isCharged resistance cycles := by
  have hcharged : s.charge.since - count + chargeCycles resistance < ((cycles - count : Nat) : Int) ↔
      s.charge.since + chargeCycles resistance < cycles := by omega
  simp only [isCharged, shifted, rebase, hcharged]

theorem read_shifted {cycles : Nat} (h : count ≤ cycles) (dataBus : UInt8) (ports : Ports)
    (address : UInt16) :
    (s.shifted count due).read (cycles - count) dataBus ports address =
      ((s.read cycles dataBus ports address).1,
        (s.read cycles dataBus ports address).2.shifted count due) := by
  have hlevel (t : Tia) (register : UInt8) :
      (t.shifted count due).level (cycles - count) ports register = t.level cycles ports register := by
    simp only [level, isCharged_shifted _ _ _ h]
    rfl
  simp only [read, clockOf_sub h, catchUp_shifted, hlevel]

theorem enforceCeiling_shifted (clock : Int) :
    (s.shifted count due).enforceCeiling (clock - clockOf count) =
      ((s.enforceCeiling clock).1.shifted count due, (s.enforceCeiling clock).2) := by
  by_cases hpassed : (s.settings.ceiling.toNat : Int) < s.beam.scanline clock
  · have hmoved : ((s.shifted count due).settings.ceiling.toNat : Int) <
        (s.shifted count due).beam.scanline (clock - clockOf count) := by
      rwa [shifted_beam, scanline_rebase]
    simp only [enforceCeiling, if_pos hpassed, if_pos hmoved]
    rfl
  · have hmoved : ¬ ((s.shifted count due).settings.ceiling.toNat : Int) <
        (s.shifted count due).beam.scanline (clock - clockOf count) := by
      rwa [shifted_beam, scanline_rebase]
    simp only [enforceCeiling, if_neg hpassed, if_neg hmoved]

/-- Vertical sync is released in both runs or in neither: the idle value is beyond the bound. -/
theorem writeSync_shifted {s : Tia} {count : Nat} {due : Int}
    (hsync : SyncShifted count s.frame.syncDue due) {clock : Int} (hclock : clock < syncIdle)
    (previous value : UInt8) :
    ∃ next, SyncShifted count (s.writeSync previous value clock).2.frame.syncDue next ∧
      (s.shifted count due).writeSync previous value (clock - clockOf count) =
        ((s.writeSync previous value clock).1,
          (s.writeSync previous value clock).2.shifted count next) := by
  have hnonneg := clockOf_nonneg count
  have hdue : due ≤ clock - clockOf count ↔ s.frame.syncDue ≤ clock := by
    rcases hsync with h | ⟨h, h'⟩ <;> omega
  rcases hraised : value &&& 0x02 != 0 with _ | _
  · by_cases hreleased : s.frame.syncDue ≤ clock
    · have hmoved : (s.shifted count due).frame.syncDue ≤ clock - clockOf count := hdue.mpr hreleased
      refine ⟨syncIdle, .inr ?_, ?_⟩
      · simp only [writeSync, hraised, Bool.false_and, Bool.false_eq_true, if_false, if_pos hreleased,
          true_and]
      · simp only [writeSync, hraised, Bool.false_and, Bool.false_eq_true, if_false,
          if_pos hreleased, if_pos hmoved]
        rfl
    · have hmoved : ¬ (s.shifted count due).frame.syncDue ≤ clock - clockOf count :=
        hdue.not.mpr hreleased
      refine ⟨due, ?_, ?_⟩
      · simpa only [writeSync, hraised, Bool.false_and, Bool.false_eq_true, if_false,
          if_neg hreleased] using hsync
      · simp only [writeSync, hraised, Bool.false_and, Bool.false_eq_true, if_false,
          if_neg hreleased, if_neg hmoved]
  · refine ⟨clock - clockOf count + lineClocks, .inl ?_, ?_⟩
    · simp only [writeSync, hraised, if_true]
      omega
    · simp only [writeSync, hraised, if_true, Bool.true_and]
      by_cases hlow : previous &&& 0x02 == 0
      · simp only [if_pos hlow, shifted_beam, scanline_rebase]
        rfl
      · simp only [if_neg hlow]
        rfl

/-- The switch of the paddle capacitors stores the cycle at which they begin to charge. -/
theorem writeBlank_shifted {cycles : Nat} (h : count ≤ cycles) (previous value : UInt8)
    (clock : Int) :
    (s.shifted count due).writeBlank previous value (clock - clockOf count) (cycles - count) =
      (s.writeBlank previous value clock cycles).shifted count due := by
  have hcycles : ((cycles - count : Nat) : Int) = cycles - count := by omega
  by_cases hground : value &&& 0x80 != 0 && !(previous &&& 0x80 != 0)
  · simp only [writeBlank, shifted_beam, scanline_rebase, hcycles, if_pos hground]
    rfl
  · by_cases hrelease : previous &&& 0x80 != 0 && !(value &&& 0x80 != 0)
    · simp only [writeBlank, shifted_beam, scanline_rebase, hcycles, if_neg hground, if_pos hrelease]
      rfl
    · simp only [writeBlank, shifted_beam, scanline_rebase, hcycles, if_neg hground, if_neg hrelease]
      rfl

theorem cyclesToLineStart_shifted {cycles : Nat} (h : count ≤ cycles) :
    (s.shifted count due).cyclesToLineStart (cycles - count) = s.cyclesToLineStart cycles := by
  have hdistance : ((cycles - count : Nat) : Int) -
      (s.beam.frameStart - clockOf count) / clocksPerCycle =
        cycles - s.beam.frameStart / clocksPerCycle := by
    simp only [clockOf, clocksPerCycle]
    omega
  simp only [cyclesToLineStart, shifted, rebase, Beam.rebase, hdistance]

theorem strobePlayer_shifted (which : Which) (clock : Int) :
    (s.shifted count due).strobePlayer which (clock - clockOf count) =
      (s.strobePlayer which clock).shifted count due := by
  have hahead : clock - clockOf count + 11 = clock + 11 - clockOf count := by omega
  have hobjects : (s.shifted count due).objects = s.objects := rfl
  simp only [strobePlayer, shifted_beam, lineClock_rebase, hahead, hobjects, catchUp_shifted]
  split <;> rfl

theorem strobePlayer_frame (which : Which) (clock : Int) :
    (s.strobePlayer which clock).frame = s.frame := by
  unfold strobePlayer
  dsimp only
  split
  · exact catchUp_frame s _
  · rfl
  · rfl

theorem strobeMissile_shifted (which : Which) (clock : Int) :
    (s.shifted count due).strobeMissile which (clock - clockOf count) =
      (s.strobeMissile which clock).shifted count due := by
  simp only [strobeMissile, lineStrobeColumn, shifted_beam, lineClock_rebase, sinceMotion_shifted]
  rfl

theorem strobeBall_shifted (clock : Int) :
    (s.shifted count due).strobeBall (clock - clockOf count) =
      (s.strobeBall clock).shifted count due := by
  simp only [strobeBall, lineStrobeColumn, shifted_beam, lineClock_rebase, sinceMotion_shifted]
  rfl

theorem strobeMotion_shifted (clock : Int) :
    (s.shifted count due).strobeMotion (clock - clockOf count) =
      (s.strobeMotion clock).shifted count due := by
  simp only [strobeMotion, shifted_beam, lineCycle_rebase]
  rfl

theorem armsStarField_shifted (previous value : UInt8) (clock : Int) :
    (s.shifted count due).armsStarField previous value (clock - clockOf count) =
      s.armsStarField previous value clock := by
  have hsince : clock - clockOf count = s.lastMotion - clockOf count + 63 ↔
      clock = s.lastMotion + 63 := by omega
  have hbeq : (clock - clockOf count == s.lastMotion - clockOf count + 63) =
      (clock == s.lastMotion + 63) := by
    rw [Bool.eq_iff_iff, beq_iff_eq, beq_iff_eq]
    exact hsince
  simp only [armsStarField, shifted, rebase, hbeq]

/-- Every register does the same in both runs. -/
theorem actOn_shifted {s : Tia} {count cycles : Nat} {due : Int} (h : count ≤ cycles)
    (hsync : SyncShifted count s.frame.syncDue due) (hclock : clockOf cycles < syncIdle)
    (register : Register) (previous value : UInt8) (afterRead : Bool) (response : Response) :
    let after := s.actOn register previous value (clockOf cycles) cycles afterRead response
    ∃ next, SyncShifted count after.1.frame.syncDue next ∧
      (s.shifted count due).actOn register previous value (clockOf (cycles - count))
        (cycles - count) afterRead response = (after.1.shifted count next, after.2) := by
  intro after
  rw [clockOf_sub h]
  cases register with
  | vsync =>
    obtain ⟨next, hnext, hwrite⟩ := writeSync_shifted hsync hclock previous value
    refine ⟨next, hnext, ?_⟩
    simp only [after, actOn, hwrite]
  | vblank =>
    refine ⟨due, hsync, ?_⟩
    simp only [after, actOn, writeBlank_shifted s count due h]
  | wsync =>
    refine ⟨due, hsync, ?_⟩
    simp only [after, actOn, cyclesToLineStart_shifted s count due h]
  | resp0 | resp1 =>
    refine ⟨due, ?_, ?_⟩
    · simpa only [after, actOn, strobePlayer_frame] using hsync
    · simp only [after, actOn, strobePlayer_shifted]
  | resm0 | resm1 =>
    refine ⟨due, hsync, ?_⟩
    simp only [after, actOn, strobeMissile_shifted]
  | resbl =>
    refine ⟨due, hsync, ?_⟩
    simp only [after, actOn, strobeBall_shifted]
  | hmove =>
    refine ⟨due, hsync, ?_⟩
    simp only [after, actOn, strobeMotion_shifted]
  | refp0 | refp1 =>
    simp only [after, actOn, writeReflection]
    split <;> exact ⟨due, hsync, rfl⟩
  | hmm0 =>
    simp only [after, actOn, armsStarField_shifted]
    split <;> exact ⟨due, hsync, rfl⟩
  | _ => exact ⟨due, hsync, rfl⟩

theorem write_shifted {s : Tia} {count cycles : Nat} {due : Int} (h : count ≤ cycles)
    (hsync : SyncShifted count s.frame.syncDue due) (hclock : clockOf cycles < syncIdle)
    (afterRead : Bool) (address : UInt16) (value : UInt8) :
    let after := s.write cycles afterRead address value
    ∃ next, SyncShifted count after.1.frame.syncDue next ∧
      (s.shifted count due).write (cycles - count) afterRead address value =
        (after.1.shifted count next, after.2) := by
  intro after
  simp only [after, write, clockOf_sub h]
  split
  · refine ⟨due, ?_, ?_⟩
    · rw [enforceCeiling_syncDue, catchUp_frame]
      exact hsync
    · rw [catchUp_shifted, enforceCeiling_shifted]
  · next register _ =>
    have hdelay (delay : Nat) : clockOf cycles - clockOf count + delay =
        clockOf cycles + delay - clockOf count := by omega
    rw [shifted_beam, lineCycle_rebase, hdelay, catchUp_shifted, enforceCeiling_shifted, ← clockOf_sub h]
    refine actOn_shifted h ?_ hclock register _ value afterRead _
    simp only [mapObjects, enforceCeiling_syncDue, catchUp_frame]
    exact hsync

end Vcs.Tia
