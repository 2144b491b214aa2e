import Mathlib.Data.Int.ModEq
import Vcs.Proofs.Tia.CatchUp

/-!
# Beam and Pixels

The beam keeps three counts of its own: the clock it has drawn to, the clocks that are left of its line and
the pixels it has drawn.  They are updated one by one, but in every state of a frame they agree, whatever is
read and written meanwhile and however often the cycle counter drops.  So every pixel of the display window
belongs to one clock of the frame.  Until the beam passes that clock the pixel shows what the buffer held
when the frame began, and from then on it keeps the colour it was given there.
-/

namespace Vcs.Tia

/-- What happens to the chip while a frame is drawn. -/
inductive FrameStep where
  | access (request : Access)
  /-- The cycle counter drops. -/
  | rebase (cycles : Nat)

def FrameStep.apply (s : Tia) : FrameStep → Tia
  | access request => (s.perform request).2
  | rebase cycles => s.rebase cycles

def play (s : Tia) (steps : List FrameStep) : Tia :=
  steps.foldl FrameStep.apply s

theorem play_append (s : Tia) (first second : List FrameStep) :
    s.play (first ++ second) = (s.play first).play second :=
  List.foldl_append

/-- Clocks that the beam has moved through the display window. -/
def Beam.swept (beam : Beam) : Int :=
  beam.drawnTo - beam.displayStart

/-- What is left of the line and how many pixels have been drawn follow from how far the beam has moved. -/
structure Beam.InStep (beam : Beam) : Prop where
  swept_nonneg : 0 ≤ beam.swept
  lineLeft_le : beam.lineLeft ≤ lineClocks
  lineLeft_modEq : (beam.lineLeft : Int) ≡ -beam.swept [ZMOD lineClocks]
  pointer_eq : (beam.pointer : Int) =
    frameWidth * (beam.swept / lineClocks) + max 0 (beam.swept % lineClocks - blankClocks)

/-- Clock at which the beam draws a pixel of the display window. -/
def Beam.pixelClock (beam : Beam) (row column : Nat) : Int :=
  beam.displayStart + lineClocks * row + blankClocks + column

/-- Place of a pixel in the frame buffer. -/
def pixelIndex (row column : Nat) : Nat :=
  frameWidth * row + column

/-- The beam has passed a pixel. -/
def Beam.HasPassed (beam : Beam) (row column : Nat) : Prop :=
  beam.pixelClock row column < beam.drawnTo

namespace Beam.InStep

variable {beam : Beam} (h : beam.InStep)

include h

theorem rebase (clocks : Int) : (beam.rebase clocks).InStep := by
  have hswept : (beam.rebase clocks).swept = beam.swept := by
    simp only [Beam.swept, Beam.rebase]
    omega
  constructor
  · exact hswept ▸ h.swept_nonneg
  · exact h.lineLeft_le
  · exact hswept ▸ h.lineLeft_modEq
  · exact hswept ▸ h.pointer_eq

theorem nextClock_eq : (beam.nextClock : Int) = beam.swept % lineClocks := by
  have hle := h.lineLeft_le
  have hmod := h.lineLeft_modEq
  simp only [Int.ModEq, lineClocks] at hle hmod
  simp only [Beam.nextClock, lineClocks]
  split <;> omega

theorem pixelIndex_lt_pointer_iff {row column : Nat} (hcolumn : column < frameWidth) :
    pixelIndex row column < beam.pointer ↔ beam.HasPassed row column := by
  have hpointer := h.pointer_eq
  have hnonneg := h.swept_nonneg
  simp only [Beam.HasPassed, Beam.pixelClock, Beam.swept, pixelIndex, lineClocks, blankClocks,
    frameWidth] at *
  omega

/-- At the clock of a pixel the beam is about to draw it. -/
theorem of_drawnTo_eq {row column : Nat} (hcolumn : column < frameWidth)
    (hnow : beam.drawnTo = beam.pixelClock row column) :
    beam.nextClock = blankClocks + column ∧ beam.pointer = pixelIndex row column := by
  have hclock := h.nextClock_eq
  have hpointer := h.pointer_eq
  simp only [Beam.pixelClock, Beam.swept, pixelIndex, lineClocks, blankClocks, frameWidth] at *
  constructor <;> omega

/-- Where a column is drawn the line does not end. -/
theorem lineLeft_pos {row column : Nat} (hcolumn : column < frameWidth)
    (hnow : beam.drawnTo = beam.pixelClock row column) : 0 < beam.lineLeft := by
  have hclock := (h.of_drawnTo_eq hcolumn hnow).1
  refine Nat.pos_of_ne_zero fun hleft ↦ ?_
  simp only [Beam.nextClock, hleft, if_true, lineClocks, blankClocks] at hclock
  omega

end Beam.InStep

theorem tick_inStep {s : Tia} (h : s.beam.InStep) : s.tick.beam.InStep := by
  obtain ⟨drawn, hbeam⟩ := s.tick_beam
  have hswept : s.tick.beam.swept = s.beam.swept + 1 := by
    simp only [Beam.swept, hbeam]
    omega
  have hclock := h.nextClock_eq
  have hnonneg := h.swept_nonneg
  constructor
  · omega
  · exact tick_lineLeft_le h.lineLeft_le
  · have hleft : s.tick.beam.lineLeft = lineClocks - s.beam.nextClock - 1 := by
      have hle := h.lineLeft_le
      simp only [hbeam, Beam.nextClock]
      split <;> omega
    simp only [Int.ModEq, hleft, hswept, lineClocks] at hclock ⊢
    omega
  · have hpointer := h.pointer_eq
    rw [hswept]
    by_cases hblank : s.beam.nextClock < blankClocks
    · rw [(tick_of_blank hblank).2, hpointer]
      simp only [lineClocks, blankClocks, frameWidth] at *
      omega
    · obtain ⟨column, hcolumn⟩ := Nat.exists_eq_add_of_le (Nat.le_of_not_lt hblank)
      rw [(tick_of_column hcolumn).2]
      push_cast
      rw [hpointer]
      simp only [lineClocks, blankClocks, frameWidth] at *
      omega

theorem ticks_inStep {s : Tia} (h : s.beam.InStep) (count : Nat) : (tick^[count] s).beam.InStep :=
  Function.Iterate.rec (fun t : Tia ↦ t.beam.InStep) h (fun _ ↦ tick_inStep) count

/-- A tick draws nothing, or one pixel. -/
theorem tick_picture (s : Tia) :
    (s.tick.video = s.video ∧ s.tick.beam.pointer = s.beam.pointer) ∨
      ∃ column, s.tick.video = { s.video with
          current := Store.put s.beam.pointer (s.turnLine.shade column) s.video.current } ∧
        s.tick.beam.pointer = s.beam.pointer + 1 := by
  by_cases hblank : s.beam.nextClock < blankClocks
  · exact .inl (tick_of_blank hblank)
  · obtain ⟨column, hcolumn⟩ := Nat.exists_eq_add_of_le (Nat.le_of_not_lt hblank)
    exact .inr ⟨column, tick_of_column hcolumn⟩

theorem tick_previous (s : Tia) : s.tick.video.previous = s.video.previous := by
  rcases s.tick_picture with ⟨hvideo, -⟩ | ⟨column, hvideo, -⟩ <;> rw [hvideo]

theorem tick_pointer_le (s : Tia) : s.beam.pointer ≤ s.tick.beam.pointer := by
  rcases s.tick_picture with ⟨-, hpointer⟩ | ⟨-, -, hpointer⟩ <;> omega

/-- A tick touches no pixel but the one at the pointer, and that only if it moves on. -/
theorem tick_keeps {s : Tia} {index : Nat}
    (h : index < s.beam.pointer ∨ s.tick.beam.pointer ≤ index) :
    s.tick.video.current[index]? = s.video.current[index]? := by
  rcases s.tick_picture with ⟨hvideo, -⟩ | ⟨column, hvideo, hpointer⟩
  · rw [hvideo]
  · rw [hvideo]
    exact Store.getElem?_put_of_ne (by omega) _ _

theorem ticks_pointer_le (s : Tia) (count : Nat) :
    s.beam.pointer ≤ (tick^[count] s).beam.pointer :=
  Function.Iterate.rec (fun t : Tia ↦ s.beam.pointer ≤ t.beam.pointer) (Nat.le_refl _)
    (fun t h ↦ Nat.le_trans h t.tick_pointer_le) count

theorem ticks_previous (s : Tia) (count : Nat) :
    (tick^[count] s).video.previous = s.video.previous :=
  Function.Iterate.rec (fun t : Tia ↦ t.video.previous = s.video.previous) rfl
    (fun t h ↦ t.tick_previous.trans h) count

theorem ticks_keep {s : Tia} {index count : Nat}
    (h : index < s.beam.pointer ∨ (tick^[count] s).beam.pointer ≤ index) :
    (tick^[count] s).video.current[index]? = s.video.current[index]? := by
  induction count with
  | zero => rfl
  | succ count ih =>
    have hbefore := s.ticks_pointer_le count
    have hlast := (tick^[count] s).tick_pointer_le
    rw [Function.iterate_succ_apply'] at h ⊢
    rw [tick_keeps (by omega), ih (by omega)]

/-- The pixels that the beam passes get the colour of their column as it is at their clock. -/
theorem ticks_draw {s : Tia} (h : s.beam.InStep) {row column count : Nat}
    (hcolumn : column < frameWidth) (hfrom : ¬ s.beam.HasPassed row column)
    (hto : s.beam.pixelClock row column < s.beam.drawnTo + count) :
    (tick^[count] s).video.current[pixelIndex row column]? =
      s.video.current[pixelIndex row column]?.map fun _ ↦
        (tick^[(s.beam.pixelClock row column - s.beam.drawnTo).toNat] s).turnLine.shade column := by
  unfold Beam.HasPassed at hfrom
  generalize hwait : (s.beam.pixelClock row column - s.beam.drawnTo).toNat = wait
  obtain ⟨rest, hcount⟩ : ∃ rest, count = rest + (wait + 1) := ⟨count - (wait + 1), by omega⟩
  obtain ⟨-, hstart, -⟩ := Beam.stamps_eq_iff.mp (s.ticks_stamps wait)
  have hnow : (tick^[wait] s).beam.drawnTo = (tick^[wait] s).beam.pixelClock row column := by
    simp only [Beam.pixelClock, hstart, ticks_drawnTo] at hwait ⊢
    simp only [Beam.pixelClock] at hfrom
    omega
  obtain ⟨hclock, hpointer⟩ := (ticks_inStep h wait).of_drawnTo_eq hcolumn hnow
  obtain ⟨hvideo, hnext⟩ := tick_of_column hclock
  have hafter : pixelIndex row column < (tick^[wait + 1] s).beam.pointer := by
    rw [Function.iterate_succ_apply', hnext]
    omega
  calc
    (tick^[count] s).video.current[pixelIndex row column]? =
        (tick^[wait + 1] s).video.current[pixelIndex row column]? := by
      rw [hcount, Function.iterate_add_apply]
      exact ticks_keep (.inl hafter)
    _ = (tick^[wait] s).video.current[pixelIndex row column]?.map fun _ ↦
          (tick^[wait] s).turnLine.shade column := by
      rw [Function.iterate_succ_apply', hvideo, ← hpointer]
      exact Store.getElem?_put_self _ _ _
    _ = s.video.current[pixelIndex row column]?.map fun _ ↦
          (tick^[wait] s).turnLine.shade column := by
      rw [ticks_keep (.inr (Nat.le_of_eq hpointer))]

/-! ## Runs of a frame -/

/-- A chip somewhere in a frame that was started with these settings. -/
structure InFrame (settings : Settings) (s : Tia) : Prop where
  settings_eq : s.settings = settings
  displayStart_eq : s.beam.displayStart = s.beam.frameStart + lineClocks * settings.yStart.toNat
  displayStop_eq : s.beam.displayStop = s.beam.displayStart + lineClocks * settings.height.toNat
  inStep : s.beam.InStep
  drawnTo_le : s.beam.drawnTo ≤ s.beam.displayStop

theorem beginFrame_inFrame (s : Tia) (carry : Int) : InFrame s.settings (s.beginFrame carry) := by
  constructor
  · rfl
  · rfl
  · simp only [beginFrame, Beam.placeWindow, lineClocks]
    omega
  · constructor <;> simp [beginFrame, Beam.swept, Beam.placeWindow, Int.ModEq]
  · simp only [beginFrame, Beam.placeWindow, lineClocks]
    omega

theorem ticks_settings (s : Tia) (count : Nat) : (tick^[count] s).settings = s.settings := by
  have htick (t : Tia) : t.tick.settings = t.settings := by
    unfold tick sweepClock turnLine
    dsimp only
    split_ifs <;> rfl
  exact Function.Iterate.rec (fun t : Tia ↦ t.settings = s.settings) rfl
    (fun t h ↦ (htick t).trans h) count

theorem rebase_zero (beam : Beam) : beam.rebase 0 = beam := by
  simp [Beam.rebase]

theorem hasPassed_rebase (beam : Beam) (clocks : Int) (row column : Nat) :
    (beam.rebase clocks).HasPassed row column ↔ beam.HasPassed row column := by
  simp only [Beam.HasPassed, Beam.pixelClock, Beam.rebase]
  omega

/-- A step of a frame lets the beam tick, not beyond the end of the window, or moves its stamps back. -/
theorem apply_ticks {s : Tia} (hle : s.beam.lineLeft ≤ lineClocks) (step : FrameStep) :
    ∃ (count : Nat) (clocks : Int),
      (step.apply s).beam = (tick^[count] s).beam.rebase clocks ∧
      (step.apply s).video = (tick^[count] s).video ∧
      (step.apply s).settings = (tick^[count] s).settings ∧
      s.beam.drawnTo + count ≤ max s.beam.drawnTo s.beam.displayStop := by
  cases step with
  | access request =>
    obtain ⟨clock, hscreen⟩ := perform_screen hle request
    rw [catchUp_eq_ticks hle] at hscreen
    refine ⟨s.beam.due clock, 0, ?_, ?_, ?_, ?_⟩
    · rw [rebase_zero]
      exact congrArg Screen.beam hscreen
    · exact congrArg Screen.video hscreen
    · exact congrArg Screen.settings hscreen
    · unfold Beam.due
      split <;> omega
  | rebase cycles => exact ⟨0, clockOf cycles, rfl, rfl, rfl, by omega⟩

namespace InFrame

variable {settings : Settings} {s : Tia} (h : InFrame settings s)

include h

/-- What a frame is looks at the settings and the beam alone, and stamps may be moved back. -/
theorem of_rebase {t : Tia} {clocks : Int} (hbeam : t.beam = s.beam.rebase clocks)
    (hsettings : t.settings = s.settings) : InFrame settings t := by
  have hwindow := h.displayStart_eq
  have hheight := h.displayStop_eq
  have hdrawn := h.drawnTo_le
  constructor
  · rw [hsettings, h.settings_eq]
  · simp only [hbeam, Beam.rebase]
    omega
  · simp only [hbeam, Beam.rebase]
    omega
  · rw [hbeam]
    exact h.inStep.rebase clocks
  · simp only [hbeam, Beam.rebase]
    omega

theorem ticks {count : Nat}
    (hlast : s.beam.drawnTo + count ≤ max s.beam.drawnTo s.beam.displayStop) :
    InFrame settings (tick^[count] s) := by
  obtain ⟨hframe, hstart, hstop⟩ := Beam.stamps_eq_iff.mp (s.ticks_stamps count)
  have hdrawn := h.drawnTo_le
  constructor
  · rw [ticks_settings, h.settings_eq]
  · rw [hstart, hframe, h.displayStart_eq]
  · rw [hstart, hstop, h.displayStop_eq]
  · exact ticks_inStep h.inStep count
  · rw [ticks_drawnTo, hstop]
    omega

theorem apply (step : FrameStep) : InFrame settings (step.apply s) := by
  obtain ⟨count, clocks, hbeam, -, hsettings, hlast⟩ := apply_ticks h.inStep.lineLeft_le step
  exact (h.ticks hlast).of_rebase hbeam hsettings

theorem play (steps : List FrameStep) : InFrame settings (s.play steps) := by
  induction steps generalizing s with
  | nil => exact h
  | cons step rest ih => exact ih (h.apply step)

theorem apply_pointer_le (step : FrameStep) : s.beam.pointer ≤ (step.apply s).beam.pointer := by
  obtain ⟨count, clocks, hbeam, -⟩ := apply_ticks h.inStep.lineLeft_le step
  rw [hbeam]
  exact s.ticks_pointer_le count

theorem apply_keeps {index : Nat} (step : FrameStep)
    (hindex : index < s.beam.pointer ∨ (step.apply s).beam.pointer ≤ index) :
    (step.apply s).video.current[index]? = s.video.current[index]? := by
  obtain ⟨count, clocks, hbeam, hvideo, -⟩ := apply_ticks h.inStep.lineLeft_le step
  rw [hbeam] at hindex
  rw [hvideo]
  exact ticks_keep hindex

theorem apply_previous (step : FrameStep) :
    (step.apply s).video.previous = s.video.previous := by
  obtain ⟨count, clocks, -, hvideo, -⟩ := apply_ticks h.inStep.lineLeft_le step
  rw [hvideo, ticks_previous]

/-- The step that passes a pixel gives it the colour that its column has when the beam gets there. -/
theorem apply_draws {row column : Nat} (hrow : row < settings.height.toNat)
    (hcolumn : column < frameWidth) (step : FrameStep) (hfrom : ¬ s.beam.HasPassed row column)
    (hto : (step.apply s).beam.HasPassed row column) :
    (step.apply s).video.current[pixelIndex row column]? =
      s.video.current[pixelIndex row column]?.map fun _ ↦
        (s.catchUp (s.beam.pixelClock row column)).turnLine.shade column := by
  obtain ⟨count, clocks, hbeam, hvideo, -⟩ := apply_ticks h.inStep.lineLeft_le step
  obtain ⟨-, hstart, -⟩ := Beam.stamps_eq_iff.mp (s.ticks_stamps count)
  have hlast : s.beam.pixelClock row column < s.beam.drawnTo + count := by
    rw [hbeam, hasPassed_rebase] at hto
    simpa only [Beam.HasPassed, Beam.pixelClock, hstart, ticks_drawnTo] using hto
  have hwindow : s.beam.displayStart ≤ s.beam.pixelClock row column ∧
      s.beam.pixelClock row column ≤ s.beam.displayStop := by
    have hheight := h.displayStop_eq
    simp only [Beam.pixelClock, lineClocks, blankClocks, frameWidth] at *
    constructor <;> omega
  have hdue : s.beam.due (s.beam.pixelClock row column) =
      (s.beam.pixelClock row column - s.beam.drawnTo).toNat := by
    rw [Beam.due, if_pos hwindow.1, Int.min_eq_left hwindow.2]
  rw [hvideo, ticks_draw h.inStep hcolumn hfrom hlast, catchUp_eq_ticks h.inStep.lineLeft_le, hdue]

theorem play_pointer_le (steps : List FrameStep) :
    s.beam.pointer ≤ (s.play steps).beam.pointer := by
  induction steps generalizing s with
  | nil => exact Nat.le_refl _
  | cons step rest ih => exact Nat.le_trans (h.apply_pointer_le step) (ih (h.apply step))

theorem play_keeps {index : Nat} (steps : List FrameStep)
    (hindex : index < s.beam.pointer ∨ (s.play steps).beam.pointer ≤ index) :
    (s.play steps).video.current[index]? = s.video.current[index]? := by
  induction steps generalizing s with
  | nil => rfl
  | cons step rest ih =>
    have hfirst := h.apply_pointer_le step
    have hrest := (h.apply step).play_pointer_le rest
    change index < s.beam.pointer ∨ ((step.apply s).play rest).beam.pointer ≤ index at hindex
    calc
      ((step.apply s).play rest).video.current[index]? =
          (step.apply s).video.current[index]? := ih (h.apply step) (by omega)
      _ = s.video.current[index]? := h.apply_keeps step (by omega)

theorem play_previous (steps : List FrameStep) :
    (s.play steps).video.previous = s.video.previous := by
  induction steps generalizing s with
  | nil => rfl
  | cons step rest ih => exact (ih (h.apply step)).trans (h.apply_previous step)

theorem pointer_le : s.beam.pointer ≤ frameWidth * settings.height.toNat := by
  have hpointer := h.inStep.pointer_eq
  have hheight := h.displayStop_eq
  have hdrawn := h.drawnTo_le
  simp only [Beam.swept, lineClocks, blankClocks, frameWidth] at *
  omega

theorem pixelClock_position (row : Nat) {column : Nat} (hcolumn : column < frameWidth) :
    s.beam.scanline (s.beam.pixelClock row column) = settings.yStart.toNat + row ∧
      s.beam.lineClock (s.beam.pixelClock row column) = blankClocks + column := by
  have hwindow := h.displayStart_eq
  simp only [Beam.scanline, Beam.lineClock, Beam.pixelClock, lineClocks, blankClocks,
    frameWidth] at *
  constructor <;> omega

theorem play_hasPassed {row column : Nat} (hcolumn : column < frameWidth)
    (steps : List FrameStep) (hpassed : s.beam.HasPassed row column) :
    (s.play steps).beam.HasPassed row column := by
  rw [← h.inStep.pixelIndex_lt_pointer_iff hcolumn] at hpassed
  rw [← (h.play steps).inStep.pixelIndex_lt_pointer_iff hcolumn]
  exact Nat.lt_of_lt_of_le hpassed (h.play_pointer_le steps)

/-- A pixel is left alone behind the beam. -/
theorem play_of_hasPassed {row column : Nat} (hcolumn : column < frameWidth)
    (hpassed : s.beam.HasPassed row column) (more : List FrameStep) :
    (s.play more).video.current[pixelIndex row column]? =
      s.video.current[pixelIndex row column]? := by
  apply h.play_keeps
  left
  rwa [h.inStep.pixelIndex_lt_pointer_iff hcolumn]

/-- A pixel is left alone before the beam. -/
theorem play_of_not_hasPassed {row column : Nat} (hcolumn : column < frameWidth)
    (steps : List FrameStep) (hnot : ¬ (s.play steps).beam.HasPassed row column) :
    (s.play steps).video.current[pixelIndex row column]? =
      s.video.current[pixelIndex row column]? := by
  apply h.play_keeps
  right
  rwa [← (h.play steps).inStep.pixelIndex_lt_pointer_iff hcolumn, Nat.not_lt] at hnot

end InFrame

/-- The step with this number in a run is the one in which the beam passes a pixel. -/
def PassesAt (start : Tia) (steps : List FrameStep) (row column count : Nat) : Prop :=
  count < steps.length ∧ ¬ (start.play (steps.take count)).beam.HasPassed row column ∧
    (start.play (steps.take (count + 1))).beam.HasPassed row column

theorem play_take_succ (start : Tia) {steps : List FrameStep} {count : Nat}
    (h : count < steps.length) :
    start.play (steps.take (count + 1)) = steps[count].apply (start.play (steps.take count)) := by
  rw [← List.take_append_getElem h, play_append]
  rfl

theorem play_take_add (start : Tia) (steps : List FrameStep) (count more : Nat) :
    start.play (steps.take (count + more)) =
      (start.play (steps.take count)).play ((steps.drop count).take more) := by
  rw [List.take_add, play_append]

/-- A beam that has passed a pixel in the end has passed it in one step of the run. -/
theorem existsUnique_passesAt {settings : Settings} {start : Tia} (h : InFrame settings start)
    {row column : Nat} (hcolumn : column < frameWidth) (steps : List FrameStep)
    (hfrom : ¬ start.beam.HasPassed row column)
    (hto : (start.play steps).beam.HasPassed row column) :
    ∃! count, PassesAt start steps row column count := by
  have hkeep {first second : Nat} (hle : first ≤ second)
      (hpassed : (start.play (steps.take first)).beam.HasPassed row column) :
      (start.play (steps.take second)).beam.HasPassed row column := by
    obtain ⟨more, rfl⟩ := Nat.exists_eq_add_of_le hle
    rw [play_take_add]
    exact (h.play _).play_hasPassed hcolumn _ hpassed
  have hsome : ∀ count ≤ steps.length,
      (start.play (steps.take count)).beam.HasPassed row column →
        ∃ earlier, PassesAt start steps row column earlier := by
    intro count
    induction count with
    | zero => exact fun _ hpassed ↦ absurd hpassed hfrom
    | succ count ih =>
      intro hlength hpassed
      by_cases hearlier : (start.play (steps.take count)).beam.HasPassed row column
      · exact ih (by omega) hearlier
      · exact ⟨count, hlength, hearlier, hpassed⟩
  obtain ⟨count, hcount⟩ := hsome steps.length (Nat.le_refl _) (by rwa [List.take_length])
  refine ⟨count, hcount, fun other hother ↦ ?_⟩
  obtain ⟨-, hnot, hpassed⟩ := hcount
  obtain ⟨-, hnotOther, hpassedOther⟩ := hother
  rcases Nat.lt_trichotomy other count with hlt | heq | hgt
  · exact absurd (hkeep hlt hpassedOther) hnot
  · exact heq
  · exact absurd (hkeep hgt hpassed) hnotOther

section Pixel

variable {settings : Settings} {start : Tia} (h : InFrame settings start) {row column : Nat}
  (hcolumn : column < frameWidth) {steps : List FrameStep} {count : Nat}

include h hcolumn

/-- In the end a pixel has the colour that it was given when the beam passed it. -/
theorem play_of_passesAt (hrow : row < settings.height.toNat)
    (hcount : PassesAt start steps row column count) :
    (start.play steps).video.current[pixelIndex row column]? =
      start.video.current[pixelIndex row column]?.map fun _ ↦
        ((start.play (steps.take count)).catchUp
          ((start.play (steps.take count)).beam.pixelClock row column)).turnLine.shade column := by
  obtain ⟨hlength, hnot, hpassed⟩ := hcount
  have hbefore : InFrame settings (start.play (steps.take count)) := h.play _
  have hafter : InFrame settings (start.play (steps.take (count + 1))) := h.play _
  have hnext := play_take_succ start hlength
  calc
    (start.play steps).video.current[pixelIndex row column]? =
        (start.play (steps.take (count + 1))).video.current[pixelIndex row column]? := by
      have hlater := hafter.play_of_hasPassed hcolumn hpassed (steps.drop (count + 1))
      rwa [← play_append, List.take_append_drop] at hlater
    _ = (start.play (steps.take count)).video.current[pixelIndex row column]?.map fun _ ↦
          ((start.play (steps.take count)).catchUp
            ((start.play (steps.take count)).beam.pixelClock row column)).turnLine.shade
              column := by
      rw [hnext] at hpassed ⊢
      exact hbefore.apply_draws hrow hcolumn _ hnot hpassed
    _ = _ := by rw [h.play_of_not_hasPassed hcolumn _ hnot]

/-- A step that does not pass a pixel does not touch it. -/
theorem play_take_of_not_passesAt (hlength : count < steps.length)
    (hother : ¬ PassesAt start steps row column count) :
    (start.play (steps.take (count + 1))).video.current[pixelIndex row column]? =
      (start.play (steps.take count)).video.current[pixelIndex row column]? := by
  have hbefore : InFrame settings (start.play (steps.take count)) := h.play _
  by_cases hpassed : (start.play (steps.take count)).beam.HasPassed row column
  · rw [play_take_add]
    exact hbefore.play_of_hasPassed hcolumn hpassed _
  · have hnot : ¬ (start.play (steps.take (count + 1))).beam.HasPassed row column := by
      intro hnow
      exact hother ⟨hlength, hpassed, hnow⟩
    rw [h.play_of_not_hasPassed hcolumn _ hnot, h.play_of_not_hasPassed hcolumn _ hpassed]

end Pixel

/-- In every state of a frame the counts of the beam agree.  Each pixel of the display window belongs to one
clock of the frame: before the beam passes it the pixel is as the frame found it, the one step that passes it
gives it the colour that its column has at that clock, and no other step touches it.  What lies below the
window and the frame before are never touched. -/
theorem play_pixels (s : Tia) (carry : Int) (steps : List FrameStep) :
    let start := s.beginFrame carry
    let reached (count : Nat) := start.play (steps.take count)
    let now := start.play steps
    now.beam.InStep ∧
      (∀ (row : Fin s.settings.height.toNat) (column : Fin frameWidth),
        let index := pixelIndex row column
        let clock := now.beam.pixelClock row column
        (now.beam.scanline clock = s.settings.yStart.toNat + row ∧
          now.beam.lineClock clock = blankClocks + column) ∧
        (index < now.beam.pointer ↔ now.beam.HasPassed row column) ∧
        (¬ now.beam.HasPassed row column →
          now.video.current[index]? = start.video.current[index]?) ∧
        (now.beam.HasPassed row column →
          (∃! count, PassesAt start steps row column count) ∧
          ∀ more, (now.play more).video.current[index]? = now.video.current[index]?) ∧
        (∀ count, PassesAt start steps row column count →
          now.video.current[index]? = start.video.current[index]?.map fun _ ↦
            ((reached count).catchUp
              ((reached count).beam.pixelClock row column)).turnLine.shade column) ∧
        ∀ count < steps.length, ¬ PassesAt start steps row column count →
          (reached (count + 1)).video.current[index]? = (reached count).video.current[index]?) ∧
      (∀ index, frameWidth * s.settings.height.toNat ≤ index →
        now.video.current[index]? = start.video.current[index]?) ∧
      now.video.previous = start.video.previous := by
  intro start reached now
  have hstart : InFrame s.settings start := s.beginFrame_inFrame carry
  have hnow : InFrame s.settings now := hstart.play steps
  refine ⟨hnow.inStep, ?_, ?_, hstart.play_previous steps⟩
  · intro row column index clock
    have hcolumn : (column : Nat) < frameWidth := column.isLt
    have hiff : index < now.beam.pointer ↔ now.beam.HasPassed row column :=
      hnow.inStep.pixelIndex_lt_pointer_iff hcolumn
    have hfresh : ¬ start.beam.HasPassed row column := by
      rw [← hstart.inStep.pixelIndex_lt_pointer_iff hcolumn]
      exact Nat.not_lt_zero _
    refine ⟨hnow.pixelClock_position row hcolumn, hiff, ?_, ?_, ?_, ?_⟩
    · exact hstart.play_of_not_hasPassed hcolumn steps
    · intro hpassed
      exact ⟨existsUnique_passesAt hstart hcolumn steps hfresh hpassed,
        hnow.play_of_hasPassed hcolumn hpassed⟩
    · intro count hcount
      exact play_of_passesAt hstart hcolumn row.isLt hcount
    · intro count hlength hother
      exact play_take_of_not_passesAt hstart hcolumn hlength hother
  · intro index hindex
    exact hstart.play_keeps steps (.inr (Nat.le_trans hnow.pointer_le hindex))

end Vcs.Tia
