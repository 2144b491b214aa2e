import Vcs.Proofs.Tia.Aging
import Vcs.Proofs.Tia.BeamPosition

/-!
# Two Chips Side by Side

Two chips that differ in their display windows do not move at the same time: above the later window one beam
sweeps and the other one waits for its first line.  What holds of both all the while is that they have been
asked for the same clock, and that all that does not age is the same (`SideBySide`).  Where both windows are
swept the beams are at the same clock, and what ages does so in both (`InStride`): a motion blank that one of
them alone brought along is over behind the eighth column of the first line, and a strobe that waits in one
of them alone is due at its end.
-/

namespace Vcs.Tia

namespace InFrame

variable {settings : Settings} {s : Tia} (h : InFrame settings s)

include h

theorem displayStart_le_displayStop : s.beam.displayStart ≤ s.beam.displayStop := by
  rw [h.displayStop_eq]
  simp only [lineClocks]
  omega

theorem drawnTo_catchUp (clock : Int) :
    (s.catchUp clock).beam.drawnTo = max s.beam.drawnTo (min clock s.beam.displayStop) := by
  have hnonneg := h.inStep.swept_nonneg
  have hle := h.drawnTo_le
  rw [catchUp_eq_ticks h.inStep.lineLeft_le, ticks_drawnTo, Beam.due]
  unfold Beam.swept at hnonneg
  split <;> omega

theorem stamps_catchUp (clock : Int) : (s.catchUp clock).beam.stamps = s.beam.stamps := by
  rw [catchUp_eq_ticks h.inStep.lineLeft_le]
  exact s.ticks_stamps _

theorem pixelClock_catchUp (clock : Int) (row column : Nat) :
    (s.catchUp clock).beam.pixelClock row column = s.beam.pixelClock row column := by
  obtain ⟨-, hstart, -⟩ := Beam.stamps_eq_iff.mp (h.stamps_catchUp clock)
  rw [Beam.pixelClock, Beam.pixelClock, hstart]

theorem catchUp (clock : Int) : InFrame settings (s.catchUp clock) := by
  have hdrawn := h.drawnTo_catchUp clock
  rw [catchUp_eq_ticks h.inStep.lineLeft_le] at hdrawn ⊢
  rw [ticks_drawnTo] at hdrawn
  exact h.ticks (by omega)

theorem of_screen {t : Tia} (hscreen : t.screen = s.screen) : InFrame settings t :=
  h.of_rebase ((congrArg Screen.beam hscreen).trans (rebase_zero s.beam).symm)
    (congrArg Screen.settings hscreen)

theorem strobePlayer (which : Which) (clock : Int) :
    InFrame settings (s.strobePlayer which clock) := by
  rcases s.strobePlayer_screen which clock with hscreen | hscreen
  · exact h.of_screen hscreen
  · exact (h.catchUp _).of_screen hscreen

theorem hasPassed_catchUp {row column : Nat} (hpassed : s.beam.HasPassed row column)
    (clock : Int) : (s.catchUp clock).beam.HasPassed row column := by
  unfold Beam.HasPassed at *
  rw [h.pixelClock_catchUp, h.drawnTo_catchUp]
  omega

theorem hasPassed_strobePlayer {row column : Nat} (hpassed : s.beam.HasPassed row column)
    (which : Which) (clock : Int) : (s.strobePlayer which clock).beam.HasPassed row column := by
  rcases s.strobePlayer_screen which clock with hscreen | hscreen
  · have hbeam : (s.strobePlayer which clock).beam = s.beam := congrArg Screen.beam hscreen
    rwa [hbeam]
  · have hbeam : (s.strobePlayer which clock).beam = (s.catchUp (clock + 11)).beam :=
      congrArg Screen.beam hscreen
    rw [hbeam]
    exact h.hasPassed_catchUp hpassed _

/-- A window in which a pixel has been passed is not empty. -/
theorem height_pos {row column : Nat} (hpassed : s.beam.HasPassed row column) :
    0 < settings.height.toNat := by
  have hstop := h.displayStop_eq
  have hle := h.drawnTo_le
  simp only [Beam.HasPassed, Beam.pixelClock, lineClocks, blankClocks] at *
  omega

/-- The clock of a pixel is inside the window. -/
theorem pixelClock_mem {row column : Nat} (hrow : row < settings.height.toNat)
    (hcolumn : column < frameWidth) :
    s.beam.displayStart ≤ s.beam.pixelClock row column ∧
      s.beam.pixelClock row column < s.beam.displayStop := by
  rw [h.displayStop_eq]
  simp only [Beam.pixelClock, lineClocks, blankClocks, frameWidth] at *
  constructor <;> omega

/-- The clock of a pixel by its scanline. -/
theorem pixelClock_eq {line : Nat} (hline : settings.yStart.toNat ≤ line) (column : Nat) :
    s.beam.pixelClock (line - settings.yStart.toNat) column =
      s.beam.frameStart + lineClocks * line + blankClocks + column := by
  have hstart := h.displayStart_eq
  simp only [Beam.pixelClock, lineClocks] at *
  omega

end InFrame

/-! ## Two chips side by side -/

/-- The scanline is inside the display window. -/
def Settings.Shows (settings : Settings) (line : Nat) : Prop :=
  settings.yStart.toNat ≤ line ∧ line < settings.yStart.toNat + settings.height.toNat

instance (settings : Settings) (line : Nat) : Decidable (settings.Shows line) :=
  inferInstanceAs (Decidable (_ ∧ _))

/-- Where the beam is when everything up to a clock has been asked for. -/
def Beam.reach (beam : Beam) (clock : Int) : Int :=
  max beam.displayStart (min clock beam.displayStop)

/-- Two chips, in frames of these settings, to which the same has been done.  With `star` missile 0 is known
to be the same in both. -/
structure SideBySide (first later : Settings) (star : Bool) (s t : Tia) : Prop where
  inFirst : InFrame first s
  inLater : InFrame later t
  reach : ∃ clock, s.beam.drawnTo = s.beam.reach clock ∧ t.beam.drawnTo = t.beam.reach clock
  view : s.view (.standing star) = t.view (.standing star)

namespace SideBySide

variable {first later : Settings} {star : Bool} {s t : Tia} (h : SideBySide first later star s t)

include h

theorem frameStart : s.beam.frameStart = t.beam.frameStart :=
  congrArg (·.beam.frameStart) h.view

theorem armed : s.objects.starField.armed = t.objects.starField.armed :=
  congrArg (·.objects.starField.armed) h.view

theorem displayStart_le (hle : first.yStart ≤ later.yStart) :
    s.beam.displayStart ≤ t.beam.displayStart := by
  have hlines : first.yStart.toNat ≤ later.yStart.toNat := hle
  rw [h.inFirst.displayStart_eq, h.inLater.displayStart_eq, h.frameStart]
  simp only [lineClocks]
  omega

theorem pixelClock_eq {line : Nat} (hfirst : first.Shows line) (hlater : later.Shows line)
    (column : Nat) :
    s.beam.pixelClock (line - first.yStart.toNat) column =
      t.beam.pixelClock (line - later.yStart.toNat) column := by
  rw [h.inFirst.pixelClock_eq hfirst.1, h.inLater.pixelClock_eq hlater.1, h.frameStart]

/-- Both beams have passed a pixel of a scanline that both show, or neither has. -/
theorem hasPassed_iff {line column : Nat} (hfirst : first.Shows line) (hlater : later.Shows line)
    (hcolumn : column < frameWidth) :
    s.beam.HasPassed (line - first.yStart.toNat) column ↔
      t.beam.HasPassed (line - later.yStart.toNat) column := by
  obtain ⟨clock, hs, ht⟩ := h.reach
  have hmem := h.inFirst.pixelClock_mem (Nat.sub_lt_left_of_lt_add hfirst.1 hfirst.2) hcolumn
  have hmem' := h.inLater.pixelClock_mem (Nat.sub_lt_left_of_lt_add hlater.1 hlater.2) hcolumn
  rw [h.pixelClock_eq hfirst hlater] at hmem
  unfold Beam.HasPassed
  rw [h.pixelClock_eq hfirst hlater]
  unfold Beam.reach at hs ht
  omega

/-- Inside both windows both beams get to the clock that is asked for. -/
theorem drawnTo_catchUp (hle : first.yStart ≤ later.yStart) {clock : Int}
    (hstart : t.beam.displayStart ≤ clock) (hstop : clock < s.beam.displayStop)
    (hstop' : clock < t.beam.displayStop) (hnow : t.beam.drawnTo ≤ clock) :
    (s.catchUp clock).beam.drawnTo = clock ∧ (t.catchUp clock).beam.drawnTo = clock := by
  obtain ⟨reached, hs, ht⟩ := h.reach
  have hbelow := h.displayStart_le hle
  rw [h.inFirst.drawnTo_catchUp, h.inLater.drawnTo_catchUp]
  unfold Beam.reach at hs ht
  constructor <;> omega

/-- Beams that have parted do not meet again. -/
theorem drawnTo_eq (hle : first.yStart ≤ later.yStart)
    (hinside : s.beam.displayStart = t.beam.displayStart ∨ t.beam.displayStart < t.beam.drawnTo)
    {clock : Int} (hthen : (s.catchUp clock).beam.drawnTo = (t.catchUp clock).beam.drawnTo) :
    s.beam.drawnTo = t.beam.drawnTo := by
  obtain ⟨reached, hs, ht⟩ := h.reach
  have hbelow := h.displayStart_le hle
  have hnonneg := h.inFirst.displayStart_le_displayStop
  have hnonneg' := h.inLater.displayStart_le_displayStop
  rw [h.inFirst.drawnTo_catchUp, h.inLater.drawnTo_catchUp] at hthen
  unfold Beam.reach at hs ht
  omega

theorem catchUp (hstar : star → t.objects.starField.armed = false) (clock : Int) :
    SideBySide first later star (s.catchUp clock) (t.catchUp clock) := by
  obtain ⟨reached, hs, ht⟩ := h.reach
  obtain ⟨-, hstart, hstop⟩ := Beam.stamps_eq_iff.mp (h.inFirst.stamps_catchUp clock)
  obtain ⟨-, hstart', hstop'⟩ := Beam.stamps_eq_iff.mp (h.inLater.stamps_catchUp clock)
  have hnonneg := h.inFirst.displayStart_le_displayStop
  have hnonneg' := h.inLater.displayStart_le_displayStop
  refine ⟨h.inFirst.catchUp clock, h.inLater.catchUp clock, ⟨max reached clock, ?_, ?_⟩, ?_⟩
  · rw [h.inFirst.drawnTo_catchUp, hs, Beam.reach, Beam.reach, hstart, hstop]
    omega
  · rw [h.inLater.drawnTo_catchUp, ht, Beam.reach, Beam.reach, hstart', hstop']
    omega
  · have hstar' : star → s.objects.starField.armed = false := h.armed ▸ hstar
    rw [view_standing_catchUp h.inFirst.inStep.lineLeft_le hstar',
      view_standing_catchUp h.inLater.inStep.lineLeft_le hstar]
    exact h.view

/-- A steady change that leaves the screen alone. -/
theorem map {change : Tia → Tia} (hsteady : Steady change)
    (hs : (change s).screen = s.screen) (ht : (change t).screen = t.screen) :
    SideBySide first later star (change s) (change t) := by
  have hbeam : (change s).beam = s.beam := congrArg Screen.beam hs
  have hbeam' : (change t).beam = t.beam := congrArg Screen.beam ht
  refine ⟨h.inFirst.of_screen hs, h.inLater.of_screen ht, ?_, hsteady.view_eq h.view⟩
  rw [hbeam, hbeam']
  exact h.reach

end SideBySide

/-- What two chips agree on that agreed on `kept` as they entered the later window, once the beam has moved
`swept` clocks through it: behind the eighth column of the first line no motion blank of before is pending,
and behind its end no player waits. -/
def Kept.aged (kept : Kept) (swept : Int) : Kept where
  blank := kept.blank || edgeClocks ≤ swept
  copies := kept.copies || lineClocks < swept
  star := kept.star

/-- Everything is agreed on behind the first line, if the star field is. -/
theorem Kept.all_within_aged (kept : Kept) (hstar : kept.star) {swept : Int}
    (h : kept = .all ∨ (lineClocks : Int) < swept) : Kept.all.Within (kept.aged swept) := by
  rcases h with rfl | hpast
  · exact ⟨fun _ ↦ rfl, fun _ ↦ rfl, fun _ ↦ rfl⟩
  · have hedge : (edgeClocks : Int) ≤ swept := by
      simp only [edgeClocks, blankClocks, lineClocks] at *
      omega
    simp only [Kept.Within, Kept.aged, decide_eq_true hedge, decide_eq_true hpast, Bool.or_true,
      hstar, implies_true, and_self]

/-- Two chips whose beams are at the same clock of a line, inside both windows. -/
structure InStride (kept : Kept) (s t : Tia) : Prop where
  lineLeft : s.beam.lineLeft = t.beam.lineLeft
  turned : t.beam.lineLeft < lineClocks ∨ t.beam.swept = 0
  view : s.view (kept.aged t.beam.swept) = t.view (kept.aged t.beam.swept)

namespace InStride

variable {kept : Kept} {s t : Tia}

/-- At the end of the first line the players are due again. -/
theorem tick_objects (h : InStride kept s t) (hstep : t.beam.InStep) :
    s.tick.objects.view (kept.aged (t.beam.swept + 1)) =
      t.tick.objects.view (kept.aged (t.beam.swept + 1)) := by
  have hview (less : Kept) (hless : less.Within (kept.aged t.beam.swept)) :
      s.objects.view less = t.objects.view less :=
    congrArg Tia.objects (view_mono hless h.view)
  rw [Tia.tick_objects, Tia.tick_objects, h.lineLeft]
  split
  · calc
      s.objects.endLine.view (kept.aged (t.beam.swept + 1)) =
          (s.objects.view (.standing kept.star)).endLine.view (kept.aged (t.beam.swept + 1)) :=
        (endLine_view _ _).symm
      _ = (t.objects.view (.standing kept.star)).endLine.view (kept.aged (t.beam.swept + 1)) := by
        rw [hview (.standing kept.star) ⟨nofun, nofun, id⟩]
      _ = t.objects.endLine.view (kept.aged (t.beam.swept + 1)) := endLine_view _ _
  · next hleft =>
    have hgained : lineClocks < t.beam.swept + 1 → lineClocks < t.beam.swept := by
      have hmod := hstep.lineLeft_modEq
      have hle := hstep.lineLeft_le
      have hturned := h.turned
      simp only [Int.ModEq, lineClocks] at *
      omega
    have hcopies : (kept.aged (t.beam.swept + 1)).copies → (kept.aged t.beam.swept).copies := by
      simp only [Kept.aged, Bool.or_eq_true, decide_eq_true_eq]
      exact Or.imp_right hgained
    exact hview ⟨false, (kept.aged (t.beam.swept + 1)).copies, kept.star⟩ ⟨nofun, hcopies, id⟩

/-- Behind the eighth column of the first line the motion blank is over. -/
theorem tick_blankPending (h : InStride kept s t) (hstep : t.beam.InStep) :
    ((kept.aged (t.beam.swept + 1)).blank && s.tick.blankPending) =
      ((kept.aged (t.beam.swept + 1)).blank && t.tick.blankPending) := by
  have hnext : s.beam.nextClock = t.beam.nextClock := by
    rw [Beam.nextClock, Beam.nextClock, h.lineLeft]
  rw [Tia.tick_blankPending, Tia.tick_blankPending, hnext]
  by_cases hedge : t.beam.nextClock = edgeClocks - 1
  · simp [hedge]
  · have hblank : (kept.aged (t.beam.swept + 1)).blank = (kept.aged t.beam.swept).blank := by
      have hclock := hstep.nextClock_eq
      have hnonneg := hstep.swept_nonneg
      have hgained : edgeClocks ≤ t.beam.swept + 1 ↔ edgeClocks ≤ t.beam.swept := by
        simp only [edgeClocks, blankClocks, lineClocks] at *
        omega
      simp only [Kept.aged, hgained]
    have hpending : ((kept.aged t.beam.swept).blank && s.blankPending) =
        ((kept.aged t.beam.swept).blank && t.blankPending) := congrArg Tia.blankPending h.view
    rw [hblank, ← Bool.and_assoc, hpending, Bool.and_assoc]

theorem tick (h : InStride kept s t) (hstep : t.beam.InStep) : InStride kept s.tick t.tick := by
  obtain ⟨drawn, hs⟩ := s.tick_beam
  obtain ⟨drawn', ht⟩ := t.tick_beam
  have hswept : t.tick.beam.swept = t.beam.swept + 1 := by
    simp only [Beam.swept, ht]
    omega
  have hle := hstep.lineLeft_le
  refine ⟨?_, .inl ?_, ?_⟩
  · rw [hs, ht, h.lineLeft]
  · rw [ht]
    simp only [lineClocks] at *
    split <;> omega
  · have hnothing : s.view .nothing = t.view .nothing := view_mono (.nothing _) h.view
    rw [hswept, view_tick, view_tick, hnothing, h.tick_objects hstep, h.tick_blankPending hstep]

theorem ticks (h : InStride kept s t) (hstep : t.beam.InStep) (count : Nat) :
    InStride kept (Tia.tick^[count] s) (Tia.tick^[count] t) := by
  induction count with
  | zero => exact h
  | succ count ih =>
    rw [Function.iterate_succ_apply', Function.iterate_succ_apply']
    exact ih.tick (ticks_inStep hstep count)

/-- Beams that were at the same clock and are so again have stayed in stride. -/
theorem catchUp (h : InStride kept s t) {first later : Settings} (hs : InFrame first s)
    (ht : InFrame later t) (hnow : s.beam.drawnTo = t.beam.drawnTo) {clock : Int}
    (hthen : (s.catchUp clock).beam.drawnTo = (t.catchUp clock).beam.drawnTo) :
    InStride kept (s.catchUp clock) (t.catchUp clock) := by
  have hle := hs.inStep.lineLeft_le
  have hle' := ht.inStep.lineLeft_le
  have hdue : s.beam.due clock = t.beam.due clock := by
    rw [catchUp_eq_ticks hle, catchUp_eq_ticks hle', ticks_drawnTo, ticks_drawnTo] at hthen
    omega
  rw [catchUp_eq_ticks hle, catchUp_eq_ticks hle', hdue]
  exact h.ticks ht.inStep _

theorem map (h : InStride kept s t) {change : Tia → Tia} (hsteady : Steady change)
    (hs : (change s).screen = s.screen) (ht : (change t).screen = t.screen) :
    InStride kept (change s) (change t) := by
  have hbeam : (change s).beam = s.beam := congrArg Screen.beam hs
  have hbeam' : (change t).beam = t.beam := congrArg Screen.beam ht
  refine ⟨?_, ?_, ?_⟩
  · rw [hbeam, hbeam', h.lineLeft]
  · rw [hbeam']
    exact h.turned
  · rw [hbeam']
    exact hsteady.view_eq h.view

/-- Chips that agree on `kept` at the first pixel of the later window are in stride. -/
theorem of_firstPixel {first later : Settings} {star : Bool} (h : SideBySide first later star s t)
    (hs : s.beam.drawnTo = t.beam.pixelClock 0 0) (ht : t.beam.drawnTo = t.beam.pixelClock 0 0)
    (hview : s.view kept = t.view kept) : InStride kept s t := by
  have hswept : t.beam.swept = blankClocks := by
    simp only [Beam.swept, Beam.pixelClock, blankClocks] at *
    omega
  have haged : kept.aged blankClocks = kept := by
    simp [Kept.aged]
  obtain ⟨hleft, hleft'⟩ : s.beam.lineLeft = 160 ∧ t.beam.lineLeft = 160 := by
    have hframe := h.frameStart
    have hstart := h.inFirst.displayStart_eq
    have hstart' := h.inLater.displayStart_eq
    have hmod := h.inFirst.inStep.lineLeft_modEq
    have hmod' := h.inLater.inStep.lineLeft_modEq
    have hle := h.inFirst.inStep.lineLeft_le
    have hle' := h.inLater.inStep.lineLeft_le
    simp only [Int.ModEq, Beam.swept, Beam.pixelClock, lineClocks, blankClocks] at *
    constructor <;> omega
  refine ⟨hleft.trans hleft'.symm, .inl ?_, ?_⟩
  · rw [hleft']
    decide
  · rw [hswept, haged]
    exact hview

end InStride

end Vcs.Tia
