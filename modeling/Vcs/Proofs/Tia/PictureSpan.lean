import Vcs.Proofs.Tia.VerticalSync

/-!
# The Span of the Picture

Where a picture is on the screen is inferred from vertical blank: it begins on the line on which blank is switched
off and ends on the one on which it is switched on.  Lines are counted anew in every frame, but what has been
noticed of sync and blank outlasts the frame.

Lines are counted here from the reset on, whatever frames begin meanwhile.  Main statement: a picture within a
frame is measured right.  If a frame begins in between, the lines of the one that ends are missing from the
height.  Should that make it negative, the line on which sync was raised last is added, and that is as many lines
only if the frame ended on that very line.  So how long sync is held is missing from a picture that goes on into
the next frame, and one that ends further down there than it began counts as if it had begun there.
-/

namespace Vcs.Tia

/-- What a write of vertical blank makes of it. -/
def Access.blank? : Access → Option Bool
  | .read .. => none
  | .write _ _ address value => if names address .vblank then some (value &&& 0x02 != 0) else none

theorem Access.sync?_eq_none {request : Access} {on : Bool} (h : request.blank? = some on) :
    request.sync? = none := by
  cases request with
  | read => rfl
  | write cycles afterRead address value =>
    rcases hblank : names address .vblank with _ | _
    · simp only [blank?, hblank, Bool.false_eq_true, if_false, reduceCtorEq] at h
    · have hsync : names address .vsync = false := by
        have hregister : Register.ofAddress? address.toUInt8 = some .vblank := of_decide_eq_true hblank
        simp [names, hregister]
      simp only [sync?, hsync, Bool.false_eq_true, if_false]

/-- A frame begins: the cycle counter restarts, and the beam keeps its place in the line. -/
def restartFrame (s : Tia) (cycles : Nat) : Tia :=
  (s.rebase cycles).beginFrame (s.lineClock cycles)

/-! ## The gauge -/

/-- What the inferred picture depends on. -/
@[ext]
structure Gauge where
  frameStart : Int
  synced : Bool
  blanked : Bool
  span : PictureSpan
  deriving DecidableEq, Repr

/-- The gauge of a chip. -/
def gauge (s : Tia) : Gauge where
  frameStart := s.beam.frameStart
  synced := s.syncRaised
  blanked := s.isBlanked
  span := s.span

namespace Gauge

/-- Scanlines from the start of the frame to a processor cycle. -/
def scanlines (g : Gauge) (cycles : Nat) : Int :=
  (clockOf cycles - g.frameStart) / lineClocks

/-- What an access makes of the inferred picture. -/
def spanAfter (g : Gauge) (request : Access) : PictureSpan :=
  match request.sync?, request.blank? with
  | some true, _ =>
    if g.synced then g.span else { g.span with syncOn := g.scanlines request.cycles }
  | _, some true => if g.blanked then g.span else g.span.blankedAt (g.scanlines request.cycles)
  | _, some false =>
    if g.blanked then { g.span with blankOff := g.scanlines request.cycles } else g.span
  | _, none => g.span

def access (g : Gauge) (request : Access) : Gauge where
  frameStart := g.frameStart
  synced := request.sync?.getD g.synced
  blanked := request.blank?.getD g.blanked
  span := g.spanAfter request

def restart (g : Gauge) (cycles : Nat) : Gauge :=
  { g with frameStart := -((clockOf cycles - g.frameStart) % lineClocks) }

end Gauge

namespace PictureSpan

/-- Height of the picture when blank is switched on at a line. -/
def rebuilt (span : PictureSpan) (line : Int) : Int :=
  if line - span.blankOff < 0 then line - span.blankOff + span.syncOn else line - span.blankOff

theorem blankedAt_eq (span : PictureSpan) (line : Int) :
    span.blankedAt line =
      if span.rebuilt line < frameHeightMin then { span with blankOn := line }
      else
        let first := if span.syncOn ≤ span.blankOff then span.blankOff - span.syncOn else span.blankOff
        { span with blankOn := line, first := first, stop := first + span.rebuilt line } := rfl

theorem blankedAt_height (span : PictureSpan) (line : Int) :
    (span.blankedAt line).stop - (span.blankedAt line).first =
      if span.rebuilt line < frameHeightMin then span.stop - span.first else span.rebuilt line := by
  rw [blankedAt_eq]
  split
  · rfl
  · exact add_sub_cancel_left _ _

theorem blankedAt_nonneg {span : PictureSpan} (hoff : 0 ≤ span.blankOff) (hfirst : 0 ≤ span.first)
    (line : Int) :
    (span.blankedAt line).blankOff = span.blankOff ∧ 0 ≤ (span.blankedAt line).first := by
  rw [blankedAt_eq]
  split
  · exact ⟨rfl, hfirst⟩
  · refine ⟨rfl, ?_⟩
    dsimp only
    split <;> omega

end PictureSpan

namespace Gauge

theorem spanAfter_nonneg {g : Gauge} (request : Access) (hline : 0 ≤ g.scanlines request.cycles)
    (hoff : 0 ≤ g.span.blankOff) (hfirst : 0 ≤ g.span.first) :
    0 ≤ (g.spanAfter request).blankOff ∧ 0 ≤ (g.spanAfter request).first := by
  unfold spanAfter
  split
  · split <;> exact ⟨hoff, hfirst⟩
  · split
    · exact ⟨hoff, hfirst⟩
    · obtain ⟨hsame, hnonneg⟩ := PictureSpan.blankedAt_nonneg hoff hfirst (g.scanlines request.cycles)
      exact ⟨hoff.trans_eq hsame.symm, hnonneg⟩
  · split
    · exact ⟨hline, hfirst⟩
    · exact ⟨hoff, hfirst⟩
  · exact ⟨hoff, hfirst⟩

/-- Until blank is switched on, the picture that has been measured stays as it is. -/
theorem span_of_unblanked {g : Gauge} {request : Access} (hblanked : g.blanked = false)
    (hrequest : request.blank? ≠ some true) :
    ∃ line, g.spanAfter request = { g.span with syncOn := line } := by
  unfold spanAfter
  split
  · split
    · exact ⟨g.span.syncOn, rfl⟩
    · exact ⟨_, rfl⟩
  · next hon _ => exact absurd hon hrequest
  · rw [hblanked]
    exact ⟨g.span.syncOn, rfl⟩
  · exact ⟨g.span.syncOn, rfl⟩

end Gauge

theorem sweep_span (s : Tia) (clock : Int) : (s.sweep clock).span = s.span := by
  unfold sweep drawStretch blankEdge drawSegment
  dsimp only
  split_ifs <;> rfl

theorem catchUp_span (s : Tia) (clock : Int) : (s.catchUp clock).span = s.span :=
  catchUp_of_sweep (·.span) sweep_span s clock

/-- Only writes of sync and blank change the inferred picture. -/
theorem actOn_span (s : Tia) {register : Register} (hsync : register ≠ .vsync) (hblank : register ≠ .vblank)
    (previous value : UInt8) (clock : Int) (cycles : Nat) (afterRead : Bool) (response : Response) :
    (s.actOn register previous value clock cycles afterRead response).1.span = s.span := by
  cases register with
  | vsync => exact absurd rfl hsync
  | vblank => exact absurd rfl hblank
  | resp0 | resp1 =>
    simp only [actOn, strobePlayer]
    split <;> simp only [mapObjects, catchUp_span]
  | refp0 | refp1 =>
    simp only [actOn, writeReflection]
    split <;> rfl
  | hmm0 =>
    simp only [actOn]
    split <;> rfl
  | hmove => simp only [actOn, strobeMotion]
  | _ => rfl

theorem writeSync_span (s : Tia) (previous value : UInt8) (clock : Int) :
    (s.writeSync previous value clock).2.span =
      if value &&& 0x02 != 0 then
        if previous &&& 0x02 != 0 then s.span
        else { s.span with syncOn := s.beam.scanline clock }
      else s.span := by
  have hspan : (s.writeSync previous value clock).2.span =
      if value &&& 0x02 != 0 && previous &&& 0x02 == 0 then
        { s.span with syncOn := s.beam.scanline clock }
      else s.span := by
    unfold writeSync
    dsimp only
    split_ifs <;> rfl
  rw [hspan]
  rcases hraised : value &&& 0x02 != 0 with _ | _ <;> rcases hwas : previous &&& 0x02 != 0 with _ | _ <;>
    simp_all [bne]

theorem writeBlank_span (s : Tia) (previous value : UInt8) (clock : Int) (cycles : Nat) :
    (s.writeBlank previous value clock cycles).span =
      if value &&& 0x02 != 0 then
        if previous &&& 0x02 != 0 then s.span else s.span.blankedAt (s.beam.scanline clock)
      else if previous &&& 0x02 != 0 then { s.span with blankOff := s.beam.scanline clock }
      else s.span := by
  rcases hon : value &&& 0x02 != 0 with _ | _ <;> rcases hwas : previous &&& 0x02 != 0 with _ | _ <;>
    simp [writeBlank, hon, hwas]

/-- What an access sees of the chip once the beam has caught up. -/
theorem caughtUp_gauge (s : Tia) (clock stop : Int) :
    ((s.catchUp stop).enforceCeiling clock).1.objects.registers = s.objects.registers ∧
      ((s.catchUp stop).enforceCeiling clock).1.beam.frameStart = s.beam.frameStart ∧
      ((s.catchUp stop).enforceCeiling clock).1.span = s.span := by
  obtain ⟨frame, hframe⟩ := enforceCeiling_eq (s.catchUp stop) clock
  rw [hframe]
  exact ⟨s.catchUp_registers stop, (s.catchUp_keeps stop).2, s.catchUp_span stop⟩

theorem write_span (s : Tia) (cycles : Nat) (afterRead : Bool) (address : UInt16) (value : UInt8) :
    (s.write cycles afterRead address value).1.span =
      s.gauge.spanAfter (.write cycles afterRead address value) := by
  rcases hregister : Register.ofAddress? address.toUInt8 with _ | register
  · simp only [write, hregister, Gauge.spanAfter, Access.sync?, Access.blank?, names, reduceCtorEq,
      decide_false, Bool.false_eq_true, if_false]
    exact (s.caughtUp_gauge _ _).2.2
  · let clock := clockOf cycles
    let stop := clock + register.delayOn (s.beam.lineCycle clock)
    let caught := ((s.catchUp stop).enforceCeiling clock).1
    obtain ⟨hregisters, hstart, hspan⟩ := s.caughtUp_gauge clock stop
    have hline : caught.beam.scanline clock = s.gauge.scanlines cycles := by
      rw [Beam.scanline, hstart]
      rfl
    let stored := caught.mapObjects fun o ↦ { o with registers := o.registers.set register value }
    have hkept : stored.span = s.gauge.span := hspan
    have hplace : stored.beam.scanline clock = s.gauge.scanlines cycles := hline
    have hprevious : caught.objects.registers.get register = s.objects.registers.get register :=
      congrArg (·.get register) hregisters
    simp only [write, hregister]
    by_cases hsync : register = .vsync
    · subst hsync
      have hsynced : (caught.objects.registers.get .vsync &&& 0x02 != 0) = s.gauge.synced :=
        congrArg (· &&& 0x02 != 0) hprevious
      have hwritten := stored.writeSync_span (caught.objects.registers.get .vsync) value clock
      rw [hsynced, hkept, hplace] at hwritten
      refine hwritten.trans ?_
      simp only [Gauge.spanAfter, Access.sync?, Access.blank?, names, hregister, Option.some.injEq,
        reduceCtorEq, decide_true, decide_false, Bool.false_eq_true, if_true, if_false]
      rcases value &&& 0x02 != 0 with _ | _ <;> rfl
    · by_cases hblank : register = .vblank
      · subst hblank
        have hblanked : (caught.objects.registers.get .vblank &&& 0x02 != 0) = s.gauge.blanked :=
          congrArg (· &&& 0x02 != 0) hprevious
        have hwritten := stored.writeBlank_span (caught.objects.registers.get .vblank) value clock cycles
        rw [hblanked, hkept, hplace] at hwritten
        refine hwritten.trans ?_
        simp only [Gauge.spanAfter, Access.sync?, Access.blank?, names, hregister, Option.some.injEq,
          reduceCtorEq, decide_true, decide_false, Bool.false_eq_true, if_true, if_false]
        rcases value &&& 0x02 != 0 with _ | _ <;> rfl
      · rw [actOn_span _ hsync hblank]
        simp only [Gauge.spanAfter, Access.sync?, Access.blank?, names, hregister, Option.some.injEq, hsync,
          hblank, decide_false, Bool.false_eq_true, if_false]
        exact hspan

/-- Only its own writes change vertical blank. -/
theorem write_isBlanked (s : Tia) (cycles : Nat) (afterRead : Bool) (address : UInt16) (value : UInt8) :
    (s.write cycles afterRead address value).1.isBlanked =
      (Access.write cycles afterRead address value).blank?.getD s.isBlanked := by
  rcases hnames : names address .vblank with _ | _
  · have hkept := s.write_get_of_ne hnames (by decide) cycles afterRead value
    simp only [Access.blank?, hnames, Bool.false_eq_true, if_false, Option.getD_none]
    exact congrArg (· &&& 0x02 != 0) hkept
  · have hregister : Register.ofAddress? address.toUInt8 = some .vblank := of_decide_eq_true hnames
    simp only [Access.blank?, hnames, if_true, Option.getD_some, write, hregister, actOn, isBlanked]
    exact congrArg (· &&& 0x02 != 0) (RegisterFile.get_set_self _ _ _)

/-- The gauge after an access is known by the gauge before it. -/
theorem perform_gauge (s : Tia) (request : Access) :
    (s.perform request).2.gauge = s.gauge.access request := by
  have hsync := (s.perform_syncAfter request).raised
  cases request with
  | read cycles dataBus ports address =>
    have hregisters : (s.read cycles dataBus ports address).2.objects.registers = s.objects.registers :=
      s.catchUp_registers _
    have hblank : (s.read cycles dataBus ports address).2.isBlanked = s.isBlanked :=
      congrArg (·.test .vblank 0x02) hregisters
    exact Gauge.ext (s.catchUp_keeps _).2 hsync hblank (s.catchUp_span _)
  | write cycles afterRead address value =>
    exact Gauge.ext (s.write_ends cycles afterRead address value).frameStart hsync
      (s.write_isBlanked cycles afterRead address value) (s.write_span cycles afterRead address value)

theorem restartFrame_gauge (s : Tia) (cycles : Nat) :
    (s.restartFrame cycles).gauge = s.gauge.restart cycles := by
  refine Gauge.ext ?_ (beginFrame_syncRaised _ _) ?_ rfl
  · change -((s.beam.lineClock (clockOf cycles) : Nat) : Int) = -((clockOf cycles - s.beam.frameStart) % lineClocks)
    simp only [Beam.lineClock, lineClocks]
    omega
  · exact congrArg (· &&& 0x02 != 0) (beginFrame_get (s.rebase cycles) _ (by decide))

/-! ## The grid -/

/-- What happens to the chip on a run without resets. -/
inductive GridStep where
  | access (request : Access)
  /-- The next frame begins. -/
  | restart (cycles : Nat)

namespace GridStep

/-- Processor cycle of a step. -/
def cycles : GridStep → Nat
  | access request => request.cycles
  | restart cycles => cycles

/-- What a step writes to vertical blank. -/
def blank? : GridStep → Option Bool
  | access request => request.blank?
  | restart _ => none

end GridStep

namespace Gauge

def step (g : Gauge) : GridStep → Gauge
  | .access request => g.access request
  | .restart cycles => g.restart cycles

theorem step_of_unblanked {g : Gauge} {step : GridStep} (hblanked : g.blanked = false)
    (hstep : step.blank? ≠ some true) :
    (g.step step).blanked = false ∧ ∃ line, (g.step step).span = { g.span with syncOn := line } := by
  cases step with
  | access request =>
    refine ⟨?_, span_of_unblanked hblanked hstep⟩
    change request.blank?.getD g.blanked = false
    rcases hrequest : request.blank? with _ | _ | _
    · exact hblanked
    · rfl
    · exact absurd hrequest hstep
  | restart cycles => exact ⟨hblanked, g.span.syncOn, rfl⟩

theorem steps_of_unblanked {g : Gauge} {steps : List GridStep} (hblanked : g.blanked = false)
    (hsteps : ∀ step ∈ steps, step.blank? ≠ some true) :
    (steps.foldl step g).blanked = false ∧
      ∃ line, (steps.foldl step g).span = { g.span with syncOn := line } := by
  induction steps generalizing g with
  | nil => exact ⟨hblanked, g.span.syncOn, rfl⟩
  | cons first rest ih =>
    obtain ⟨hfirst, hrest⟩ := List.forall_mem_cons.mp hsteps
    obtain ⟨hstill, line, hspan⟩ := step_of_unblanked hblanked hfirst
    obtain ⟨hlast, last, hend⟩ := ih hstill hrest
    exact ⟨hlast, last, by rw [List.foldl_cons, hend, hspan]⟩

end Gauge

/-- A chip on a run, with its place on the lines that have been counted since the reset. -/
structure GridWatch where
  chip : Tia
  /-- Cycle of the reset. -/
  since : Nat
  /-- Cycles that have dropped out of the counter. -/
  dropped : Nat := 0
  /-- Line on which the frame has begun. -/
  top : Int := 0

namespace GridWatch

/-- Line of a processor cycle. -/
def line (w : GridWatch) (cycles : Nat) : Int :=
  (clockOf (w.dropped + cycles) - clockOf w.since) / lineClocks

def observe (w : GridWatch) : GridStep → GridWatch
  | .access request => { w with chip := (w.chip.perform request).2 }
  | .restart cycles =>
    { w with
      chip := w.chip.restartFrame cycles
      dropped := w.dropped + cycles
      top := w.line cycles }

def watch (w : GridWatch) (steps : List GridStep) : GridWatch :=
  steps.foldl observe w

/-- The watch of a chip that has just been reset. -/
def start (before : Tia) (cycles : Nat) : GridWatch where
  chip := (before.reset cycles).1
  since := cycles

/-- Cycles of the steps of a run, those included that have dropped out of the counter. -/
def stepCycles (dropped : Nat) : List GridStep → List Nat
  | [] => []
  | .access request :: rest => (dropped + request.cycles) :: stepCycles dropped rest
  | .restart cycles :: rest => (dropped + cycles) :: stepCycles (dropped + cycles) rest

/-- The steps of a run since a reset are at cycles that never go back. -/
def InOrder (since : Nat) (steps : List GridStep) : Prop :=
  (since :: stepCycles 0 steps).Pairwise (· ≤ ·)

instance (since : Nat) (steps : List GridStep) : Decidable (InOrder since steps) :=
  inferInstanceAs (Decidable ((since :: stepCycles 0 steps).Pairwise (· ≤ ·)))

theorem observe_gauge (w : GridWatch) (step : GridStep) :
    (w.observe step).chip.gauge = w.chip.gauge.step step := by
  cases step with
  | access request => exact w.chip.perform_gauge request
  | restart cycles => exact w.chip.restartFrame_gauge cycles

theorem watch_gauge (w : GridWatch) (steps : List GridStep) :
    (w.watch steps).chip.gauge = steps.foldl Gauge.step w.chip.gauge := by
  induction steps generalizing w with
  | nil => rfl
  | cons step rest ih =>
    have hrest := ih (w.observe step)
    rwa [observe_gauge] at hrest

/-- Behind everything that happened by some cycle the chip knows on which line of the grid its frame has begun, and
its stamps are lines of frames. -/
structure Sound (now : Nat) (w : GridWatch) : Prop where
  frameStart_eq : w.chip.beam.frameStart = clockOf w.since + lineClocks * w.top - clockOf w.dropped
  top_le : clockOf w.since + lineClocks * w.top ≤ clockOf now
  blankOff_nonneg : 0 ≤ w.chip.span.blankOff
  first_nonneg : 0 ≤ w.chip.span.first

theorem start_sound (before : Tia) (cycles : Nat) : (start before cycles).Sound cycles where
  frameStart_eq := by
    have hstart : (start before cycles).chip.beam.frameStart = clockOf cycles := rfl
    have hsince : (start before cycles).since = cycles := rfl
    rw [hstart, hsince]
    simp only [start, clockOf]
    omega
  top_le := by
    have hsince : (start before cycles).since = cycles := rfl
    rw [hsince]
    simp only [start]
    omega
  blankOff_nonneg := Int.le_refl 0
  first_nonneg := Int.le_refl 0

namespace Sound

variable {w : GridWatch} {now : Nat} (h : w.Sound now)

include h

/-- Lines of a frame are counted from the one on which it has begun. -/
theorem scanlines_eq (cycles : Nat) : w.chip.gauge.scanlines cycles = w.line cycles - w.top := by
  have hstart : w.chip.gauge.frameStart = _ := h.frameStart_eq
  simp only [Gauge.scanlines, line, hstart, clockOf, lineClocks, clocksPerCycle]
  omega

theorem scanlines_nonneg {cycles : Nat} (hnow : now ≤ w.dropped + cycles) :
    0 ≤ w.chip.gauge.scanlines cycles := by
  have htop := h.top_le
  have hlater := clockOf_le_clockOf hnow
  rw [h.scanlines_eq, line]
  simp only [lineClocks] at htop ⊢
  omega

theorem observe {step : GridStep} (hnow : now ≤ w.dropped + step.cycles) :
    (w.observe step).Sound (w.dropped + step.cycles) := by
  have hstart : w.chip.gauge.frameStart = _ := h.frameStart_eq
  have htop := h.top_le
  have hlater := clockOf_le_clockOf hnow
  have hgauge := w.observe_gauge step
  cases step with
  | access request =>
    obtain ⟨hoff, hfirst⟩ :=
      Gauge.spanAfter_nonneg request (h.scanlines_nonneg hnow) h.blankOff_nonneg h.first_nonneg
    refine ⟨(congrArg Gauge.frameStart hgauge).trans hstart, htop.trans hlater, ?_, ?_⟩
    · exact hoff.trans_eq (congrArg (fun g ↦ g.span.blankOff) hgauge).symm
    · exact hfirst.trans_eq (congrArg (fun g ↦ g.span.first) hgauge).symm
  | restart cycles =>
    have hplace : (w.observe (.restart cycles)).chip.beam.frameStart =
        -((clockOf cycles - w.chip.gauge.frameStart) % lineClocks) := congrArg Gauge.frameStart hgauge
    refine ⟨?_, ?_, ?_, ?_⟩
    · rw [hplace, hstart]
      simp only [GridWatch.observe, line, clockOf, clocksPerCycle, lineClocks]
      omega
    · simp only [GridWatch.observe, line, lineClocks, GridStep.cycles]
      omega
    · exact h.blankOff_nonneg.trans_eq (congrArg (fun g ↦ g.span.blankOff) hgauge).symm
    · exact h.first_nonneg.trans_eq (congrArg (fun g ↦ g.span.first) hgauge).symm

omit h in
theorem stepCycles_cons (w : GridWatch) (step : GridStep) (rest : List GridStep) :
    stepCycles w.dropped (step :: rest) =
      (w.dropped + step.cycles) :: stepCycles (w.observe step).dropped rest := by
  cases step <;> rfl

/-- Along a run whose steps are in order the chip keeps its place, and the steps that follow are in order too. -/
theorem watch {steps rest : List GridStep}
    (horder : (now :: stepCycles w.dropped (steps ++ rest)).Pairwise (· ≤ ·)) :
    ∃ later, (w.watch steps).Sound later ∧
      (later :: stepCycles (w.watch steps).dropped rest).Pairwise (· ≤ ·) := by
  induction steps generalizing w now with
  | nil => exact ⟨now, h, horder⟩
  | cons step steps ih =>
    rw [List.cons_append, stepCycles_cons] at horder
    obtain ⟨hnow, hlater⟩ := List.pairwise_cons.mp horder
    exact ih (h.observe (hnow _ List.mem_cons_self)) hlater

end Sound

/-- A picture begins where blank is switched off, and ends where it is switched on for the first time since. -/
structure Spans (since : Nat) (before : Tia) (past : List GridStep) (off : Access)
    (between : List GridStep) (on : Access) : Prop where
  inOrder : InOrder since (past ++ .access off :: (between ++ [.access on]))
  blanked : ((start before since).watch past).chip.isBlanked = true
  switchedOff : off.blank? = some false
  staysOff : ∀ step ∈ between, step.blank? ≠ some true
  switchedOn : on.blank? = some true

section

variable {since : Nat} {before : Tia} {past between : List GridStep} {off on : Access}

theorem Spans.sounds (h : Spans since before past off between on) :
    let w := (start before since).watch past
    let v := w.watch (.access off :: between)
    (∃ now, w.Sound now ∧ now ≤ w.dropped + off.cycles) ∧
      ∃ now, v.Sound now ∧ now ≤ v.dropped + on.cycles := by
  intro w v
  obtain ⟨first, hw, horder⟩ := (start_sound before since).watch h.inOrder
  rw [Sound.stepCycles_cons] at horder
  obtain ⟨hoff, hlater⟩ := List.pairwise_cons.mp horder
  obtain ⟨second, hv, horder⟩ := (hw.observe (hoff _ List.mem_cons_self)).watch hlater
  obtain ⟨hon, -⟩ := List.pairwise_cons.mp horder
  exact ⟨⟨first, hw, hoff _ List.mem_cons_self⟩, second, hv, hon _ List.mem_cons_self⟩

/-- What the chip makes of a picture. -/
theorem Spans.span_eq (h : Spans since before past off between on) :
    let w := (start before since).watch past
    let v := w.watch (.access off :: between)
    (v.observe (.access on)).chip.span = v.chip.span.blankedAt (v.line on.cycles - v.top) ∧
      v.chip.span.blankOff = w.line off.cycles - w.top ∧ v.chip.span.first = w.chip.span.first ∧
        v.chip.span.stop = w.chip.span.stop := by
  intro w v
  obtain ⟨⟨first, hw, -⟩, second, hv, -⟩ := h.sounds
  have hblanked : w.chip.gauge.blanked = true := h.blanked
  have hoff : (w.observe (.access off)).chip.gauge = w.chip.gauge.access off := w.chip.perform_gauge off
  have hcleared : (w.chip.gauge.access off).blanked = false := by
    change off.blank?.getD _ = false
    rw [h.switchedOff]
    rfl
  have hpast : (w.chip.gauge.access off).span =
      { w.chip.span with blankOff := w.line off.cycles - w.top } := by
    change w.chip.gauge.spanAfter off = _
    rw [← hw.scanlines_eq]
    simp only [Gauge.spanAfter, Access.sync?_eq_none h.switchedOff, h.switchedOff, hblanked, if_true]
    rfl
  have hgauge : v.chip.gauge = between.foldl Gauge.step (w.chip.gauge.access off) :=
    ((w.observe (.access off)).watch_gauge between).trans (congrArg (between.foldl Gauge.step ·) hoff)
  obtain ⟨hstill, line, hspan⟩ := Gauge.steps_of_unblanked hcleared h.staysOff
  rw [← hgauge] at hstill hspan
  have hkept : v.chip.span =
      { w.chip.span with blankOff := w.line off.cycles - w.top, syncOn := line } := by
    rw [hpast] at hspan
    exact hspan
  refine ⟨?_, ?_⟩
  · have hon : (v.observe (.access on)).chip.span = v.chip.gauge.spanAfter on :=
      congrArg Gauge.span (v.chip.perform_gauge on)
    rw [hon, ← hv.scanlines_eq]
    simp only [Gauge.spanAfter, Access.sync?_eq_none h.switchedOn, h.switchedOn, hstill,
      Bool.false_eq_true, if_false]
    rfl
  · rw [hkept]
    exact ⟨rfl, rfl, rfl⟩

theorem watch_top (w : GridWatch) {steps : List GridStep}
    (h : ∀ cycles, GridStep.restart cycles ∉ steps) : (w.watch steps).top = w.top := by
  induction steps generalizing w with
  | nil => rfl
  | cons step rest ih =>
    have hrest := ih (w.observe step) fun cycles hmem ↦ h cycles (List.mem_cons_of_mem _ hmem)
    cases step with
    | access request => exact hrest
    | restart cycles => exact absurd List.mem_cons_self (h cycles)

end

theorem height_eq_iff {lines : Int} (h : frameHeightMin ≤ lines) (syncOn earlier advance : Int) :
    let rebuilt := if lines < advance then lines - advance + syncOn else lines - advance
    (if rebuilt < frameHeightMin then earlier else rebuilt) = lines ↔
      advance = 0 ∨ lines < advance ∧ syncOn = advance ∨ rebuilt < frameHeightMin ∧ earlier = lines := by
  simp only [frameHeightMin] at h ⊢
  split_ifs <;> omega

/-- What is taken for the height of a picture.  In a frame it is the height; if frames begin in between, the lines
of those that end are missing, and at most the line on which sync was raised last is added instead. -/
theorem measured_height_iff {since : Nat} {before : Tia} {past between : List GridStep} {off on : Access}
    (h : Spans since before past off between on) :
    let w := (start before since).watch past
    let v := w.watch (.access off :: between)
    let span := (v.observe (.access on)).chip.span
    let lines := v.line on.cycles - w.line off.cycles
    let advance := v.top - w.top
    let rebuilt := if lines < advance then lines - advance + v.chip.span.syncOn else lines - advance
    let earlier := w.chip.span.stop - w.chip.span.first
    0 ≤ span.first ∧
      span.stop - span.first = (if rebuilt < frameHeightMin then earlier else rebuilt) ∧
      ((∀ cycles, GridStep.restart cycles ∉ between) → advance = 0) ∧
      (frameHeightMin ≤ lines →
        (span.stop - span.first = lines ↔
          advance = 0 ∨ lines < advance ∧ v.chip.span.syncOn = advance ∨
            rebuilt < frameHeightMin ∧ earlier = lines)) := by
  intro w v span lines advance rebuilt earlier
  obtain ⟨hspan, hoff, hfirst, hstop⟩ := h.span_eq
  obtain ⟨-, now, hv, -⟩ := h.sounds
  have hnonneg : 0 ≤ span.first :=
    (PictureSpan.blankedAt_nonneg hv.blankOff_nonneg hv.first_nonneg _).2.trans_eq
      (congrArg PictureSpan.first hspan).symm
  have hplain : v.line on.cycles - v.top - v.chip.span.blankOff = lines - advance := by
    rw [show v.chip.span.blankOff = w.line off.cycles - w.top from hoff]
    simp only [lines, advance]
    omega
  have hrebuilt : v.chip.span.rebuilt (v.line on.cycles - v.top) = rebuilt := by
    have hbefore : lines - advance < 0 ↔ lines < advance := by omega
    rw [PictureSpan.rebuilt, hplain, if_congr hbefore rfl rfl]
  have hearlier : v.chip.span.stop - v.chip.span.first = earlier := by
    rw [show v.chip.span.stop = w.chip.span.stop from hstop,
      show v.chip.span.first = w.chip.span.first from hfirst]
  have hheight := v.chip.span.blankedAt_height (v.line on.cycles - v.top)
  rw [← hspan, hrebuilt, hearlier] at hheight
  refine ⟨hnonneg, hheight, ?_, fun hlines ↦ ?_⟩
  · intro hframe
    have htop : v.top = w.top := watch_top (w.observe (.access off)) hframe
    simp only [advance, htop, sub_self]
  · rw [show span.stop - span.first = _ from hheight]
    exact height_eq_iff hlines v.chip.span.syncOn earlier advance

theorem start_gauge (before : Tia) (cycles : Nat) :
    (start before cycles).chip.gauge =
      { frameStart := clockOf cycles, synced := false, blanked := false, span := {} } :=
  Gauge.ext rfl (congrArg (· &&& 0x02 != 0) (before.reset_get cycles .vsync))
    (congrArg (· &&& 0x02 != 0) (before.reset_get cycles .vblank)) rfl

/-- Sync is raised on line 262, the frame is restarted on the same line, and blank is switched on at line 50 of the
next frame: a picture of 112 lines. -/
theorem measured_height_of_crossing :
    let past : List GridStep := [.restart 0, .access (.write 0 true 1 0x02)]
    let off : Access := .write 15200 true 1 0
    let between : List GridStep := [.access (.write 19912 true 0 0x02), .restart 19912]
    let on : Access := .write 3800 true 1 0x02
    let w := (start (Tia.new {}) 0).watch past
    let v := w.watch (.access off :: between)
    let span := (v.observe (.access on)).chip.span
    Spans 0 (Tia.new {}) past off between on ∧ v.line on.cycles - w.line off.cycles = 112 ∧
      v.top - w.top = 262 ∧ 0 ≤ span.first ∧ span.stop - span.first = 112 := by
  intro past off between on w v span
  have hpast : w.chip.gauge = past.foldl Gauge.step (start (Tia.new {}) 0).chip.gauge := watch_gauge _ past
  have hv : v.chip.gauge = (.access off :: between).foldl Gauge.step w.chip.gauge := watch_gauge w _
  rw [start_gauge] at hpast
  rw [hpast] at hv
  have hblanked : w.chip.gauge.blanked = true := by
    rw [hpast]
    decide
  have hsync : v.chip.span.syncOn = 262 := by
    change v.chip.gauge.span.syncOn = 262
    rw [hv]
    decide
  have hspans : Spans 0 (Tia.new {}) past off between on :=
    ⟨by decide, hblanked, by decide, by decide, by decide⟩
  have hlines : v.line on.cycles - w.line off.cycles = 112 := by decide +kernel
  have hadvance : v.top - w.top = 262 := by decide +kernel
  obtain ⟨hfirst, -, -, hiff⟩ := measured_height_iff hspans
  rw [show v.line on.cycles - w.line off.cycles = 112 from hlines, show v.top - w.top = 262 from hadvance,
    show v.chip.span.syncOn = 262 from hsync] at hiff
  exact ⟨hspans, hlines, hadvance, hfirst, (hiff (by decide)).mpr (.inr (.inl ⟨by decide, rfl⟩))⟩

/-- The picture begins on line 150, sync is raised on line 200 and released three lines later, and blank is switched
on at line 60 of the next frame: 113 lines, of which 110 are found. -/
theorem measured_height_short_of_sync :
    let past : List GridStep := [.restart 0, .access (.write 0 true 1 0x02)]
    let off : Access := .write 11400 true 1 0
    let between : List GridStep :=
      [.access (.write 15200 true 0 0x02), .access (.write 15428 true 0 0), .restart 15428]
    let on : Access := .write 4560 true 1 0x02
    let w := (start (Tia.new {}) 0).watch past
    let v := w.watch (.access off :: between)
    let span := (v.observe (.access on)).chip.span
    Spans 0 (Tia.new {}) past off between on ∧ v.line on.cycles - w.line off.cycles = 113 ∧
      span.first = 150 ∧ span.stop = 260 := by
  intro past off between on w v span
  have hpast : w.chip.gauge = past.foldl Gauge.step (start (Tia.new {}) 0).chip.gauge := watch_gauge _ past
  have hv : v.chip.gauge = (.access off :: between).foldl Gauge.step w.chip.gauge := watch_gauge w _
  have hlast : span = (v.chip.gauge.step (.access on)).span :=
    congrArg Gauge.span (v.observe_gauge (.access on))
  rw [start_gauge] at hpast
  rw [hpast] at hv
  rw [hv] at hlast
  have hblanked : w.chip.gauge.blanked = true := by
    rw [hpast]
    decide
  have hspans : Spans 0 (Tia.new {}) past off between on :=
    ⟨by decide, hblanked, by decide, by decide, by decide⟩
  refine ⟨hspans, by decide +kernel, ?_, ?_⟩
  · rw [hlast]
    decide
  · rw [hlast]
    decide

end GridWatch

end Vcs.Tia
