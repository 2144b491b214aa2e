import Vcs.Tia.Basic

/-!
# Drawing

The beam catches up stretch by stretch, a stretch ending where the line does.  Within a stretch the blank
at the start of the line is skipped, the columns are drawn with the objects as they are, and a pending
motion blank turns the first eight columns black again.
-/

namespace Vcs.Tia

/-- Clock of the line at which a motion blank ends, eight columns into the picture. -/
abbrev edgeClocks : Nat := blankClocks + 8

/-- Draws `count` columns from `column` on.  Pixels go to the buffer from `pointer` on, and collisions are
added to the latches. -/
def drawColumns (o : Objects) (pixels : ByteArray) (latches : UInt16) (pointer column : Nat) :
    (count : Nat) → ByteArray × UInt16
  | 0 => (pixels, latches)
  | count + 1 =>
    let set := o.covering column
    drawColumns o (Store.put pointer (o.color column set) pixels) (latches ||| Collision.lookup set)
      (pointer + 1) (column + 1) count

/-- Draws `count` columns from `column` on at the pointer.  During vertical blank they are black and nothing
collides. -/
def drawSegment (s : Tia) (column count : Nat) : Tia :=
  let pointer := s.beam.pointer
  let beam := { s.beam with pointer := pointer + count }
  if s.objects.registers.test .vblank 0x02 then
    { s with
      beam := beam
      video := { s.video with current := fillPixels s.video.current pointer 0 count } }
  else
    let drawn := drawColumns s.objects s.video.current s.collisions pointer column count
    { s with
      beam := beam
      video := { s.video with current := drawn.1 }
      collisions := drawn.2 }

/-- Blacks out what a stretch of `count` columns drew of the first eight.  The blank is over when the beam
has passed them. -/
def blankEdge (s : Tia) (pointer start count : Nat) : Tia :=
  if s.blankPending && start < edgeClocks then
    { s with
      video := { s.video with
        current := fillPixels s.video.current pointer 0 (min (edgeClocks - start) count) }
      blankPending := count + start < edgeClocks }
  else s

/-- Draws what lies under a stretch of `count` clocks, starting `start` clocks into the line. -/
def drawStretch (s : Tia) (start count : Nat) : Tia :=
  let skipped := min (blankClocks - start) count
  let pointer := s.beam.pointer
  let start := start + skipped
  let count := count - skipped
  (s.drawSegment (start - blankClocks) count).blankEdge pointer start count

/-- Draws one stretch: to a clock, or to the end of the line if that comes first. -/
def sweep (s : Tia) (clock : Int) : Tia :=
  let start := lineClocks - s.beam.lineLeft
  let (count, beam) := s.beam.advance clock
  let s := { s with beam := beam }.drawStretch start count
  if s.beam.lineLeft = lineClocks then { s with objects := s.objects.endLine } else s

@[simp]
theorem drawSegment_beam (s : Tia) (column count : Nat) :
    (s.drawSegment column count).beam = { s.beam with pointer := s.beam.pointer + count } := by
  unfold drawSegment
  dsimp only
  split <;> rfl

@[simp]
theorem blankEdge_beam (s : Tia) (pointer start count : Nat) :
    (s.blankEdge pointer start count).beam = s.beam := by
  unfold blankEdge
  split <;> rfl

theorem sweep_beam (s : Tia) (clock : Int) :
    ∃ drawn, (s.sweep clock).beam = { (s.beam.advance clock).2 with pointer := drawn } := by
  unfold sweep drawStretch
  dsimp only
  split <;> simp

theorem debt_sweep_lt (s : Tia) (clock : Int) (h : (s.sweep clock).beam.drawnTo < clock) :
    (s.sweep clock).beam.debt clock < s.beam.debt clock := by
  obtain ⟨drawn, e⟩ := s.sweep_beam clock
  rw [e] at h ⊢
  exact s.beam.debt_advance_lt clock h

/-- Draws stretch after stretch until a clock is reached. -/
def sweepTo (s : Tia) (clock : Int) : Tia :=
  let next := s.sweep clock
  if next.beam.drawnTo < clock then next.sweepTo clock else next
termination_by s.beam.debt clock
decreasing_by
  exact s.debt_sweep_lt clock (by assumption)

/-- Draws everything up to a clock. -/
def catchUp (s : Tia) (clock : Int) : Tia :=
  if s.beam.owes clock then s.sweepTo (min clock s.beam.displayStop) else s

end Vcs.Tia
