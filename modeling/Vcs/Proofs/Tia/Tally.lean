import Vcs.Tia.Read
import Vcs.Tia.Write

/-!
# The Tally of Frames

The video chip counts the frames it has completed.  A reset does not touch the count, and nothing else depends on
it: a chip with another count draws the same, answers the same and asks the same of the board.
-/

namespace Vcs.Tia

/-- The chip with another count of completed frames. -/
def tally (s : Tia) (count : Nat) : Tia :=
  { s with frame := { s.frame with completed := count } }

variable (s : Tia) (count : Nat)

theorem drawSegment_tally (column width : Nat) :
    (s.tally count).drawSegment column width = (s.drawSegment column width).tally count := by
  by_cases hblanked : s.objects.registers.test .vblank 0x02
  · have hother : (s.tally count).objects.registers.test .vblank 0x02 := hblanked
    rw [drawSegment, drawSegment, if_pos hblanked, if_pos hother]
    rfl
  · have hother : ¬ (s.tally count).objects.registers.test .vblank 0x02 := hblanked
    rw [drawSegment, drawSegment, if_neg hblanked, if_neg hother]
    rfl

theorem blankEdge_tally (pointer start width : Nat) :
    (s.tally count).blankEdge pointer start width = (s.blankEdge pointer start width).tally count := by
  by_cases hpending : s.blankPending && start < edgeClocks
  · have hother : (s.tally count).blankPending && start < edgeClocks := hpending
    rw [blankEdge, blankEdge, if_pos hpending, if_pos hother]
    rfl
  · have hother : ¬ ((s.tally count).blankPending && start < edgeClocks) := hpending
    rw [blankEdge, blankEdge, if_neg hpending, if_neg hother]

theorem drawStretch_tally (start width : Nat) :
    (s.tally count).drawStretch start width = (s.drawStretch start width).tally count := by
  simp only [drawStretch, drawSegment_tally, blankEdge_tally]
  rfl

theorem sweep_tally (clock : Int) : (s.tally count).sweep clock = (s.sweep clock).tally count := by
  have hdraw (start width : Nat) (beam : Beam) :
      { s.tally count with beam := beam }.drawStretch start width =
        ({ s with beam := beam }.drawStretch start width).tally count :=
    drawStretch_tally { s with beam := beam } count start width
  have hend (t : Tia) :
      (if (t.tally count).beam.lineLeft = lineClocks then
        { t.tally count with objects := (t.tally count).objects.endLine }
      else t.tally count) =
        (if t.beam.lineLeft = lineClocks then { t with objects := t.objects.endLine }
        else t).tally count := by
    by_cases hleft : t.beam.lineLeft = lineClocks
    · have hother : (t.tally count).beam.lineLeft = lineClocks := hleft
      rw [if_pos hleft, if_pos hother]
      rfl
    · have hother : (t.tally count).beam.lineLeft ≠ lineClocks := hleft
      rw [if_neg hleft, if_neg hother]
  have hbeam : (s.tally count).beam = s.beam := rfl
  simp only [sweep, hbeam, hdraw]
  exact hend _

theorem sweepTo_tally (clock : Int) : (s.tally count).sweepTo clock = (s.sweepTo clock).tally count := by
  fun_induction sweepTo s clock with
  | case1 s next hlt ih =>
    have hother : (next.tally count).beam.drawnTo < clock := hlt
    rw [sweepTo, sweep_tally, if_pos hother, ih]
  | case2 s next hge =>
    have hother : ¬ (next.tally count).beam.drawnTo < clock := hge
    rw [sweepTo, sweep_tally, if_neg hother]

theorem catchUp_tally (clock : Int) : (s.tally count).catchUp clock = (s.catchUp clock).tally count := by
  have hbeam : (s.tally count).beam = s.beam := rfl
  rw [catchUp, catchUp, hbeam, sweepTo_tally]
  exact (apply_ite (fun t : Tia ↦ t.tally count) _ _ _).symm

theorem read_tally (cycles : Nat) (dataBus : UInt8) (ports : Ports) (address : UInt16) :
    (s.tally count).read cycles dataBus ports address =
      ((s.read cycles dataBus ports address).1, (s.read cycles dataBus ports address).2.tally count) := by
  simp only [read, catchUp_tally]
  rfl

theorem enforceCeiling_tally (clock : Int) :
    (s.tally count).enforceCeiling clock =
      ((s.enforceCeiling clock).1.tally count, (s.enforceCeiling clock).2) := by
  by_cases hpassed : (s.settings.ceiling.toNat : Int) < s.beam.scanline clock
  · have hother : ((s.tally count).settings.ceiling.toNat : Int) <
        (s.tally count).beam.scanline clock := hpassed
    simp only [enforceCeiling, if_pos hpassed, if_pos hother]
    rfl
  · have hother : ¬ ((s.tally count).settings.ceiling.toNat : Int) <
        (s.tally count).beam.scanline clock := hpassed
    simp only [enforceCeiling, if_neg hpassed, if_neg hother]

theorem writeSync_tally (previous value : UInt8) (clock : Int) :
    (s.tally count).writeSync previous value clock =
      ((s.writeSync previous value clock).1, (s.writeSync previous value clock).2.tally count) := by
  rcases hraised : value &&& 0x02 != 0 with _ | _
  · by_cases hdue : s.frame.syncDue ≤ clock
    · have hother : (s.tally count).frame.syncDue ≤ clock := hdue
      simp only [writeSync, hraised, Bool.false_and, Bool.false_eq_true, if_false, if_pos hdue,
        if_pos hother]
      rfl
    · have hother : ¬ (s.tally count).frame.syncDue ≤ clock := hdue
      simp only [writeSync, hraised, Bool.false_and, Bool.false_eq_true, if_false, if_neg hdue,
        if_neg hother]
  · by_cases hlow : previous &&& 0x02 == 0
    · simp only [writeSync, hraised, hlow, Bool.true_and, if_true]
      rfl
    · simp only [writeSync, hraised, hlow, Bool.true_and, Bool.false_eq_true, if_false, if_true]
      rfl

theorem strobePlayer_tally (which : Which) (clock : Int) :
    (s.tally count).strobePlayer which clock = (s.strobePlayer which clock).tally count := by
  have hobjects : (s.tally count).objects = s.objects := rfl
  have hbeam : (s.tally count).beam = s.beam := rfl
  simp only [strobePlayer, hobjects, hbeam, catchUp_tally]
  split <;> rfl

theorem actOn_tally (register : Register) (previous value : UInt8) (clock : Int) (cycles : Nat)
    (afterRead : Bool) (response : Response) :
    (s.tally count).actOn register previous value clock cycles afterRead response =
      ((s.actOn register previous value clock cycles afterRead response).1.tally count,
        (s.actOn register previous value clock cycles afterRead response).2) := by
  cases register with
  | vsync => simp only [actOn, writeSync_tally]
  | resp0 | resp1 => simp only [actOn, strobePlayer_tally]
  | refp0 | refp1 =>
    simp only [actOn, writeReflection]
    split <;> rfl
  | hmm0 =>
    by_cases harms : s.armsStarField previous value clock
    · have hother : (s.tally count).armsStarField previous value clock := harms
      simp only [actOn, if_pos harms, if_pos hother]
      rfl
    · have hother : ¬ (s.tally count).armsStarField previous value clock := harms
      simp only [actOn, if_neg harms, if_neg hother]
  | _ => rfl

theorem write_tally (cycles : Nat) (afterRead : Bool) (address : UInt16) (value : UInt8) :
    (s.tally count).write cycles afterRead address value =
      ((s.write cycles afterRead address value).1.tally count,
        (s.write cycles afterRead address value).2) := by
  simp only [write]
  split
  · rw [catchUp_tally, enforceCeiling_tally]
  · next register _ =>
    have hbeam : (s.tally count).beam = s.beam := rfl
    rw [hbeam, catchUp_tally, enforceCeiling_tally]
    let caught := (s.catchUp (clockOf cycles + register.delayOn (s.beam.lineCycle (clockOf cycles)))
      ).enforceCeiling (clockOf cycles)
    let stored := caught.1.mapObjects fun o ↦ { o with registers := o.registers.set register value }
    exact stored.actOn_tally count register (caught.1.objects.registers.get register) value
      (clockOf cycles) cycles afterRead caught.2

end Vcs.Tia
