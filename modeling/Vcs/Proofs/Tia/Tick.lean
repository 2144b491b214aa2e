import Mathlib.Logic.Function.Iterate
import Vcs.Tia.Render

/-!
# One Colour Clock

The beam draws in stretches that end where a line does or where somebody asks for the picture.  Here it
moves by one colour clock at a time, which is how the chip itself does it: a tick ends the line if its end
has been reached, and draws one column if the blank at the start of the line is over.  A stretch is as many
ticks as it has clocks, however the stretches are cut, so that catching up to a clock is nothing but the
ticks that are due by then.
-/

namespace Vcs.Tia

/-- Whether vertical blank is on: the columns are black and nothing collides. -/
def isBlanked (s : Tia) : Bool :=
  s.objects.registers.test .vblank 0x02

/-- The byte that the beam leaves in a column. -/
def shade (s : Tia) (column : Nat) : UInt8 :=
  if s.isBlanked || s.blankPending && column < 8 then 0
  else s.objects.color column (s.objects.covering column)

/-- Ends the line if its end has been reached. -/
def turnLine (s : Tia) : Tia :=
  if s.beam.lineLeft = 0 then
    { s with beam := { s.beam with lineLeft := lineClocks }, objects := s.objects.endLine }
  else s

/-- Draws one column.  A motion blank is over behind the eighth. -/
def drawColumn (s : Tia) (column : Nat) : Tia :=
  { s with
    beam := { s.beam with pointer := s.beam.pointer + 1 }
    video := { s.video with
      current := Store.put s.beam.pointer (s.shade column) s.video.current }
    collisions :=
      if s.isBlanked then s.collisions
      else s.collisions ||| Collision.lookup (s.objects.covering column)
    blankPending := s.blankPending && column ≠ 7 }

/-- The beam some clocks further on the same line. -/
def Beam.ahead (beam : Beam) (count : Nat) : Beam :=
  { beam with drawnTo := beam.drawnTo + count, lineLeft := beam.lineLeft - count }

/-- Moves the beam by one clock of a line that has not ended. -/
def sweepClock (s : Tia) : Tia :=
  let clock := lineClocks - s.beam.lineLeft
  let s := { s with beam := s.beam.ahead 1 }
  if clock < blankClocks then s else s.drawColumn (clock - blankClocks)

/-- Moves the beam by one clock. -/
def tick (s : Tia) : Tia :=
  s.turnLine.sweepClock

theorem endLine_registers (o : Objects) : o.endLine.registers = o.registers := by
  unfold Objects.endLine
  dsimp only
  split <;> rfl

theorem turnLine_of_pos {s : Tia} (h : 0 < s.beam.lineLeft) : s.turnLine = s :=
  if_neg (by omega)

/-- Ending the line now or leaving it to the tick is the same. -/
theorem tick_turnLine (s : Tia) : s.turnLine.tick = s.tick := by
  have h : 0 < s.turnLine.beam.lineLeft := by
    unfold turnLine
    split
    · exact (by decide : 0 < lineClocks)
    · omega
  rw [tick, turnLine_of_pos h, tick]

theorem ahead_ahead (beam : Beam) (first second : Nat) :
    (beam.ahead first).ahead second = beam.ahead (first + second) := by
  simp only [Beam.ahead, Beam.mk.injEq, true_and, and_true]
  omega

theorem sweepClock_beam (s : Tia) :
    ∃ drawn, s.sweepClock.beam = { s.beam.ahead 1 with pointer := drawn } := by
  unfold sweepClock
  dsimp only
  split
  · exact ⟨_, rfl⟩
  · exact ⟨_, rfl⟩

theorem tick_beam (s : Tia) :
    ∃ drawn, s.tick.beam =
      { s.beam with
        drawnTo := s.beam.drawnTo + 1
        lineLeft := (if s.beam.lineLeft = 0 then lineClocks else s.beam.lineLeft) - 1
        pointer := drawn } := by
  obtain ⟨drawn, hbeam⟩ := s.turnLine.sweepClock_beam
  refine ⟨drawn, ?_⟩
  rw [tick, hbeam, turnLine]
  split <;> rfl

theorem tick_objects (s : Tia) :
    s.tick.objects = if s.beam.lineLeft = 0 then s.objects.endLine else s.objects := by
  have hsweep (t : Tia) : t.sweepClock.objects = t.objects := by
    unfold sweepClock
    dsimp only
    split <;> rfl
  rw [tick, hsweep, turnLine]
  split <;> rfl

/-- Clock of the line that the beam passes next. -/
def Beam.nextClock (beam : Beam) : Nat :=
  lineClocks - if beam.lineLeft = 0 then lineClocks else beam.lineLeft

theorem turnLine_lineLeft (s : Tia) :
    lineClocks - s.turnLine.beam.lineLeft = s.beam.nextClock := by
  rw [turnLine, Beam.nextClock]
  split <;> rfl

theorem turnLine_video (s : Tia) :
    s.turnLine.video = s.video ∧ s.turnLine.beam.pointer = s.beam.pointer := by
  unfold turnLine
  split <;> exact ⟨rfl, rfl⟩

theorem tick_of_blank {s : Tia} (h : s.beam.nextClock < blankClocks) :
    s.tick.video = s.video ∧ s.tick.beam.pointer = s.beam.pointer := by
  have hblank : lineClocks - s.turnLine.beam.lineLeft < blankClocks := by
    rwa [turnLine_lineLeft]
  rw [tick, sweepClock, if_pos hblank]
  exact s.turnLine_video

/-- Behind the blank a tick draws one pixel, in the colour of its column. -/
theorem tick_of_column {s : Tia} {column : Nat} (h : s.beam.nextClock = blankClocks + column) :
    s.tick.video = { s.video with
        current := Store.put s.beam.pointer (s.turnLine.shade column) s.video.current } ∧
      s.tick.beam.pointer = s.beam.pointer + 1 := by
  obtain ⟨hvideo, hpointer⟩ := s.turnLine_video
  have hclock : lineClocks - s.turnLine.beam.lineLeft = blankClocks + column := by
    rw [turnLine_lineLeft, h]
  have hcolumn : blankClocks + column - blankClocks = column := Nat.add_sub_cancel_left _ _
  rw [tick, sweepClock, hclock, if_neg (by omega), hcolumn, ← hvideo, ← hpointer]
  exact ⟨rfl, rfl⟩

@[simp]
theorem tick_drawnTo (s : Tia) : s.tick.beam.drawnTo = s.beam.drawnTo + 1 := by
  obtain ⟨drawn, h⟩ := s.tick_beam
  rw [h]

@[simp]
theorem ticks_drawnTo (s : Tia) (count : Nat) :
    (tick^[count] s).beam.drawnTo = s.beam.drawnTo + count := by
  induction count with
  | zero => simp
  | succ count ih =>
    rw [Function.iterate_succ_apply', tick_drawnTo, ih]
    omega

/-! ## Columns and edges

What is drawn in one go can be drawn column by column.  The motion blank is laid over the columns at the
end of a stretch; it touches only what has been drawn before, so it may as well be laid at once. -/

theorem fillPixels_put {offset start : Nat} (h : offset < start) (value color : UInt8)
    (pixels : ByteArray) (count : Nat) :
    fillPixels (Store.put offset value pixels) start color count =
      Store.put offset value (fillPixels pixels start color count) := by
  induction count generalizing pixels start with
  | zero => rfl
  | succ count ih =>
    rw [fillPixels, fillPixels, Store.put_comm (by omega), ih (by omega)]

theorem drawColumns_put {offset pointer : Nat} (h : offset < pointer) (value : UInt8)
    (o : Objects) (pixels : ByteArray) (latches : UInt16) (column count : Nat) :
    drawColumns o (Store.put offset value pixels) latches pointer column count =
      (Store.put offset value (drawColumns o pixels latches pointer column count).1,
        (drawColumns o pixels latches pointer column count).2) := by
  induction count generalizing pixels latches pointer column with
  | zero => rfl
  | succ count ih =>
    simp only [drawColumns]
    rw [Store.put_comm (by omega), ih (by omega)]

theorem drawSegment_zero (s : Tia) (column : Nat) : s.drawSegment column 0 = s := by
  simp [drawSegment, fillPixels, drawColumns]

theorem drawSegment_succ (s : Tia) (column count : Nat) :
    s.drawSegment column (count + 1) =
      (s.drawSegment column 1).drawSegment (column + 1) count := by
  have hpointer : s.beam.pointer + (count + 1) = s.beam.pointer + 1 + count := by omega
  by_cases hv : s.objects.registers.test .vblank 0x02 <;>
    simp [drawSegment, hv, hpointer, fillPixels, drawColumns]

@[simp]
theorem drawSegment_blankPending (s : Tia) (column count : Nat) :
    (s.drawSegment column count).blankPending = s.blankPending := by
  unfold drawSegment
  dsimp only
  split <;> rfl

theorem blankEdge_of_clear {s : Tia} {start : Nat}
    (h : ¬ (s.blankPending && start < edgeClocks)) (pointer count : Nat) :
    s.blankEdge pointer start count = s :=
  if_neg h

theorem blankEdge_zero (s : Tia) (pointer start : Nat) : s.blankEdge pointer start 0 = s := by
  by_cases hb : s.blankPending && start < edgeClocks
  · rw [blankEdge, if_pos hb]
    rcases s
    simp_all [fillPixels]
  · exact blankEdge_of_clear hb pointer 0

theorem blankEdge_succ (s : Tia) (pointer start count : Nat) :
    s.blankEdge pointer start (count + 1) =
      (s.blankEdge pointer start 1).blankEdge (pointer + 1) (start + 1) count := by
  by_cases hb : s.blankPending && start < edgeClocks
  · have hlt : start < edgeClocks := by simp_all
    have hmin : min (edgeClocks - start) (count + 1) =
        min (edgeClocks - (start + 1)) count + 1 := by omega
    have hone : min (edgeClocks - start) 1 = 1 := by omega
    simp only [blankEdge, hb, if_true, hmin, hone]
    by_cases h : start + 1 < edgeClocks
    · have hfirst : 1 + start < edgeClocks := by omega
      have hrest : count + 1 + start < edgeClocks ↔ count + (start + 1) < edgeClocks := by omega
      simp [h, hfirst, hrest, fillPixels]
    · have hfirst : ¬ 1 + start < edgeClocks := by omega
      have hrest : ¬ count + 1 + start < edgeClocks := by omega
      have hnone : edgeClocks - (start + 1) = 0 := by omega
      simp [hfirst, hrest, hnone, fillPixels]
  · have hnext : ¬ (s.blankPending && start + 1 < edgeClocks) := by
      simp only [Bool.and_eq_true, decide_eq_true_eq, not_and] at hb ⊢
      intro h
      have := hb h
      omega
    rw [blankEdge_of_clear hb, blankEdge_of_clear hb, blankEdge_of_clear hnext]

/-- A motion blank over a column behind the pointer does not care what is drawn from there on. -/
theorem blankEdge_drawSegment (s : Tia) {pointer : Nat} (h : pointer < s.beam.pointer)
    (start column count : Nat) :
    (s.drawSegment column count).blankEdge pointer start 1 =
      (s.blankEdge pointer start 1).drawSegment column count := by
  by_cases hb : s.blankPending && start < edgeClocks
  · have hfill (pixels : ByteArray) :
        fillPixels pixels pointer 0 (min (edgeClocks - start) 1) = Store.put pointer 0 pixels := by
      have hlt : start < edgeClocks := by simp_all
      rw [show min (edgeClocks - start) 1 = 1 by omega]
      rfl
    by_cases hv : s.objects.registers.test .vblank 0x02 <;>
      simp_all [drawSegment, blankEdge, fillPixels_put h, drawColumns_put h]
  · have hclear : ¬ ((s.drawSegment column count).blankPending && start < edgeClocks) := by
      simpa using hb
    rw [blankEdge_of_clear hb, blankEdge_of_clear hclear]

theorem drawColumn_eq (s : Tia) (column : Nat) :
    s.drawColumn column =
      (s.drawSegment column 1).blankEdge s.beam.pointer (blankClocks + column) 1 := by
  have hedge : blankClocks + column < edgeClocks ↔ column < 8 := by
    simp only [edgeClocks]
    omega
  by_cases hb : s.blankPending && column < 8
  · have hc : column < 8 := by simp_all
    have hlast : 1 + (blankClocks + column) < edgeClocks ↔ column ≠ 7 := by
      simp only [edgeClocks, blankClocks]
      omega
    have hmin : min (edgeClocks - (blankClocks + column)) 1 = 1 := by
      simp only [edgeClocks]
      omega
    by_cases hv : s.objects.registers.test .vblank 0x02 <;>
      simp_all [drawColumn, shade, isBlanked, drawSegment, blankEdge, fillPixels, drawColumns]
  · have hclear :
        ¬ ((s.drawSegment column 1).blankPending && blankClocks + column < edgeClocks) := by
      simpa [hedge] using hb
    have hkept : s.blankPending → ¬ column = 7 := by
      simp only [Bool.and_eq_true, decide_eq_true_eq, not_and] at hb
      intro hp
      have := hb hp
      omega
    rw [blankEdge_of_clear hclear]
    by_cases hv : s.objects.registers.test .vblank 0x02 <;>
      simpa [drawColumn, shade, isBlanked, drawSegment, fillPixels, drawColumns, hv, hb]
        using hkept

theorem drawStretch_zero (s : Tia) (start : Nat) : s.drawStretch start 0 = s := by
  simp [drawStretch, drawSegment_zero, blankEdge_zero]

/-- A clock of the blank draws nothing. -/
theorem drawStretch_blank (s : Tia) {start : Nat} (h : start < blankClocks) (count : Nat) :
    s.drawStretch start (count + 1) = s.drawStretch (start + 1) count := by
  have hskip : min (blankClocks - start) (count + 1) =
      min (blankClocks - (start + 1)) count + 1 := by omega
  have hclock : start + (min (blankClocks - (start + 1)) count + 1) =
      start + 1 + min (blankClocks - (start + 1)) count := by omega
  simp only [drawStretch, hskip, hclock, Nat.add_sub_add_right]

/-- Every later clock draws its column. -/
theorem drawStretch_column (s : Tia) (column count : Nat) :
    s.drawStretch (blankClocks + column) (count + 1) =
      (s.drawColumn column).drawStretch (blankClocks + column + 1) count := by
  have hskip (column count : Nat) : min (blankClocks - (blankClocks + column)) count = 0 := by
    omega
  have hcolumn (column : Nat) : blankClocks + column - blankClocks = column := by omega
  simp only [drawStretch, Nat.add_assoc, hskip, hcolumn, Nat.add_zero, Nat.sub_zero]
  rw [drawSegment_succ, blankEdge_succ, blankEdge_drawSegment, ← drawColumn_eq]
  · rfl
  · simp

theorem drawStretch_beam (s : Tia) (start count : Nat) :
    ∃ drawn, (s.drawStretch start count).beam = { s.beam with pointer := drawn } := by
  simp [drawStretch]

/-- Drawing does not look at how much of the line is left. -/
theorem drawStretch_lineLeft (s : Tia) (start count left : Nat) :
    { s with beam := { s.beam with lineLeft := left } }.drawStretch start count =
      { s.drawStretch start count with
        beam := { (s.drawStretch start count).beam with lineLeft := left } } := by
  have hsegment (column count : Nat) :
      { s with beam := { s.beam with lineLeft := left } }.drawSegment column count =
        { s.drawSegment column count with
          beam := { (s.drawSegment column count).beam with lineLeft := left } } := by
    unfold drawSegment
    dsimp only
    split <;> rfl
  have hedge (s : Tia) (pointer start count : Nat) :
      { s with beam := { s.beam with lineLeft := left } }.blankEdge pointer start count =
        { s.blankEdge pointer start count with
          beam := { (s.blankEdge pointer start count).beam with lineLeft := left } } := by
    unfold blankEdge
    dsimp only
    split <;> rfl
  simp only [drawStretch, hsegment, hedge]

/-- Draws `count` clocks of a line that does not end in them. -/
def stretch (s : Tia) (count : Nat) : Tia :=
  { s with beam := s.beam.ahead count }.drawStretch (lineClocks - s.beam.lineLeft) count

theorem stretch_zero (s : Tia) : s.stretch 0 = s := by
  rw [stretch, drawStretch_zero]
  simp [Beam.ahead]

theorem stretch_succ {s : Tia} (hpos : 0 < s.beam.lineLeft) (hle : s.beam.lineLeft ≤ lineClocks)
    (count : Nat) : s.stretch (count + 1) = s.sweepClock.stretch count := by
  have hbeam : s.beam.ahead (count + 1) = (s.beam.ahead 1).ahead count := by
    rw [ahead_ahead, Nat.add_comm]
  have hstart : lineClocks - (s.beam.lineLeft - 1) = lineClocks - s.beam.lineLeft + 1 := by omega
  by_cases hc : lineClocks - s.beam.lineLeft < blankClocks
  · have hstep : s.sweepClock = { s with beam := s.beam.ahead 1 } := if_pos hc
    rw [hstep, stretch, drawStretch_blank _ hc, hbeam, ← hstart]
    rfl
  · obtain ⟨column, hclock⟩ := Nat.exists_eq_add_of_le (Nat.le_of_not_lt hc)
    have hcolumn : lineClocks - s.beam.lineLeft - blankClocks = column := by omega
    have hstep : s.sweepClock = { s with beam := s.beam.ahead 1 }.drawColumn column := by
      rw [← hcolumn]
      exact if_neg hc
    rw [hstep, stretch, hclock, drawStretch_column, hbeam, ← hclock, ← hstart]
    rfl

theorem stretch_eq_ticks {s : Tia} {count : Nat} (hcount : count ≤ s.beam.lineLeft)
    (hle : s.beam.lineLeft ≤ lineClocks) : s.stretch count = tick^[count] s := by
  induction count generalizing s with
  | zero => exact s.stretch_zero
  | succ count ih =>
    have htick : s.tick = s.sweepClock := by
      rw [tick, turnLine_of_pos (by omega)]
    obtain ⟨drawn, hbeam⟩ := s.sweepClock_beam
    have hleft : s.sweepClock.beam.lineLeft = s.beam.lineLeft - 1 := by rw [hbeam]; rfl
    rw [stretch_succ (by omega) hle, ih (by omega) (by omega), Function.iterate_succ_apply, htick]

/-- A sweep that goes past the end of the line ends the line. -/
theorem sweep_of_lt {s : Tia} {clock : Int} (h : s.beam.drawnTo + s.beam.lineLeft < clock) :
    s.sweep clock = (s.stretch s.beam.lineLeft).turnLine := by
  have hadvance : s.beam.advance clock =
      (s.beam.lineLeft, { s.beam.ahead s.beam.lineLeft with lineLeft := lineClocks }) := if_pos h
  obtain ⟨drawn, hbeam⟩ := drawStretch_beam { s with beam := s.beam.ahead s.beam.lineLeft }
    (lineClocks - s.beam.lineLeft) s.beam.lineLeft
  have hleft : (s.stretch s.beam.lineLeft).beam.lineLeft = 0 := by
    rw [stretch, hbeam]
    exact Nat.sub_self _
  have hdraw := drawStretch_lineLeft { s with beam := s.beam.ahead s.beam.lineLeft }
    (lineClocks - s.beam.lineLeft) s.beam.lineLeft lineClocks
  simp only at hdraw
  simp only [sweep, hadvance]
  rw [hdraw, turnLine, if_pos hleft]
  simp only [if_true]
  rfl

/-- A sweep that ends before the line does, or just there, leaves its end to the next one. -/
theorem sweep_of_le {s : Tia} {clock : Int} (hnow : s.beam.drawnTo < clock)
    (h : clock ≤ s.beam.drawnTo + s.beam.lineLeft) (hle : s.beam.lineLeft ≤ lineClocks) :
    s.sweep clock = s.stretch (clock - s.beam.drawnTo).toNat := by
  have hadvance : s.beam.advance clock =
      ((clock - s.beam.drawnTo).toNat, s.beam.ahead (clock - s.beam.drawnTo).toNat) := by
    rw [Beam.advance, if_neg (by omega)]
    simp only [Beam.ahead, Prod.mk.injEq, Beam.mk.injEq, true_and, and_true]
    omega
  obtain ⟨drawn, hbeam⟩ := drawStretch_beam
    { s with beam := s.beam.ahead (clock - s.beam.drawnTo).toNat }
    (lineClocks - s.beam.lineLeft) (clock - s.beam.drawnTo).toNat
  simp only [sweep, hadvance]
  rw [if_neg]
  · rfl
  · rw [hbeam]
    simp only [Beam.ahead]
    omega

theorem sweep_beam_of_lt {s : Tia} {clock : Int}
    (h : s.beam.drawnTo + s.beam.lineLeft < clock) :
    (s.sweep clock).beam.drawnTo = s.beam.drawnTo + s.beam.lineLeft ∧
      (s.sweep clock).beam.lineLeft = lineClocks := by
  obtain ⟨drawn, hbeam⟩ := s.sweep_beam clock
  rw [hbeam, Beam.advance, if_pos h]
  exact ⟨rfl, rfl⟩

/-- Sweeping to a clock is as many ticks as it is away. -/
theorem sweepTo_eq_ticks {s : Tia} {clock : Int} (hnow : s.beam.drawnTo < clock)
    (hle : s.beam.lineLeft ≤ lineClocks) :
    s.sweepTo clock = tick^[(clock - s.beam.drawnTo).toNat] s := by
  fun_induction sweepTo s clock with
  | case1 s next hlt ih =>
    have hlong : s.beam.drawnTo + s.beam.lineLeft < clock := by
      by_contra hshort
      have hnext : next = s.stretch _ := sweep_of_le hnow (by omega) hle
      rw [hnext, stretch_eq_ticks (by omega) hle, ticks_drawnTo] at hlt
      omega
    have hnext : next = (tick^[s.beam.lineLeft] s).turnLine := by
      rw [← stretch_eq_ticks (Nat.le_refl _) hle]
      exact sweep_of_lt hlong
    obtain ⟨hdrawn, hleft⟩ : next.beam.drawnTo = _ ∧ next.beam.lineLeft = _ :=
      sweep_beam_of_lt hlong
    -- At least one clock is left, and its tick is the one that ends the line.
    obtain ⟨more, hmore⟩ : ∃ more, (clock - next.beam.drawnTo).toNat = more + 1 :=
      ⟨(clock - next.beam.drawnTo).toNat - 1, by omega⟩
    have hcount : (clock - s.beam.drawnTo).toNat = more + 1 + s.beam.lineLeft := by omega
    calc
      next.sweepTo clock = tick^[more + 1] next := by rw [ih hlt (by omega), hmore]
      _ = tick^[more] (tick (tick^[s.beam.lineLeft] s)) := by
        rw [Function.iterate_succ_apply, hnext, tick_turnLine]
      _ = tick^[(clock - s.beam.drawnTo).toNat] s := by
        rw [← Function.iterate_succ_apply, ← Function.iterate_add_apply, hcount]
  | case2 s next hge =>
    have hshort : clock ≤ s.beam.drawnTo + s.beam.lineLeft := by
      by_contra hlong
      have hdrawn : next.beam.drawnTo = _ := (sweep_beam_of_lt (by omega)).1
      omega
    have hnext : next = s.stretch _ := sweep_of_le hnow hshort hle
    rw [hnext]
    exact stretch_eq_ticks (by omega) hle

/-- Ticks due by a clock: none before the display window begins, and none behind its end. -/
def Beam.due (beam : Beam) (clock : Int) : Nat :=
  if beam.displayStart ≤ clock then (min clock beam.displayStop - beam.drawnTo).toNat else 0

/-- Catching up is nothing but the ticks that are due. -/
theorem catchUp_eq_ticks {s : Tia} (hle : s.beam.lineLeft ≤ lineClocks) (clock : Int) :
    s.catchUp clock = tick^[s.beam.due clock] s := by
  by_cases howes : s.beam.owes clock
  · have hnow : s.beam.displayStart ≤ clock ∧ s.beam.drawnTo < clock ∧
        s.beam.drawnTo < s.beam.displayStop := by simpa [Beam.owes, and_assoc] using howes
    rw [catchUp, if_pos howes, sweepTo_eq_ticks (by omega) hle, Beam.due, if_pos hnow.1]
  · have hnone : s.beam.due clock = 0 := by
      simp only [Beam.owes, Bool.and_eq_true, decide_eq_true_eq, not_and] at howes
      unfold Beam.due
      split
      · omega
      · rfl
    rw [catchUp, if_neg howes, hnone, Function.iterate_zero_apply]

end Vcs.Tia
