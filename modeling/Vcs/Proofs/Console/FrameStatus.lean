import Vcs.Proofs.Console.SelfJump

/-!
# Frame Status

A call of the frame pump says how its frame ended.  It looks at two things only, how many slices are left of its
budget and whether the frame has been cut off, so it says "overrun" of every frame that took its last slice.
Main statement: it tells the truth all the same.  Every instruction takes time, and after nine slices the beam
is thousands of lines past any ceiling, where no write to the video chip completes a frame any more but all of
them cut it off.  A frame is reported complete exactly if vertical sync completed it at or below the ceiling,
and one that is left unfinished has taken every instruction of the budget.
-/

namespace Vcs

theorem mem_moments_iff {β : Type} [Bus β] {b : β} {events : List BusEvent} {moment : Moment β} :
    moment ∈ moments b events ↔
      ∃ before after, events = before ++ moment.event :: after ∧ moment.bus = replay b before := by
  induction events generalizing b with
  | nil => simp [moments]
  | cons event rest ih =>
    constructor
    · intro hmem
      rcases List.mem_cons.mp hmem with rfl | hrest
      · exact ⟨[], rest, rfl, rfl⟩
      · obtain ⟨before, after, rfl, hbus⟩ := ih.mp hrest
        exact ⟨event :: before, after, rfl, hbus⟩
    · rintro ⟨_ | ⟨first, before⟩, after, hsplit, hbus⟩
      · obtain ⟨rfl, rfl⟩ := List.cons.inj hsplit
        exact List.mem_cons.mpr (.inl (congrArg (Moment.mk · moment.event) hbus))
      · obtain ⟨rfl, rfl⟩ := List.cons.inj hsplit
        exact List.mem_cons_of_mem _ (ih.mpr ⟨before, after, rfl, hbus⟩)

namespace Board

theorem keeps_overrun : Bus.Keeps fun b : Board ↦ b.tia.frame.overrun = true := by
  apply keeps_of_frameStep
  intro b past released after hstep hoverrun
  rw [hstep.overrun, hoverrun]
  rfl

/-- Cycles that a write takes: those of a wait for the line, if it follows a read. -/
theorem write_cycles_le {b : Board} {address : UInt16} (value : UInt8)
    (h : (Tia.names address .wsync && b.afterRead) = false) :
    (b.write address value).cycles ≤ b.cycles := by
  by_cases hreaches : b.ReachesVideo address
  · have hcycles := (write_of_reachesVideo hreaches value).cycles
    have hstall := (b.tia.write_ends b.cycles b.afterRead address value).stall
    rw [h] at hstall
    rw [hcycles, hstall]
    exact Nat.min_le_left _ _
  · exact (write_of_not_reachesVideo hreaches value).cycles.le

theorem keeps_le_cycles {count : Nat} (hcount : count ≤ cycleLimit) :
    Bus.Keeps fun b : Board ↦ count ≤ b.cycles where
  read {b} address h := by
    change count ≤ (b.read address).cycles
    rw [(b.read_keeps address).2.2]
    exact h
  write {b} address value h := by
    change count ≤ (b.write address value).cycles
    by_cases hreaches : b.ReachesVideo address
    · rw [(write_of_reachesVideo hreaches value).cycles]
      exact Nat.le_min.mpr ⟨h.trans (Nat.le_add_right _ _), hcount⟩
    · rw [(write_of_not_reachesVideo hreaches value).cycles]
      exact h
  elapse cycles h := Nat.le_min.mpr ⟨h.trans (Nat.le_add_right _ _), hcount⟩

theorem keeps_cycles_le : Bus.Keeps fun b : Board ↦ b.cycles ≤ cycleLimit where
  read {b} address h := (b.read_keeps address).2.2.trans_le h
  write {b} address value h := by
    change (b.write address value).cycles ≤ cycleLimit
    by_cases hreaches : b.ReachesVideo address
    · rw [(write_of_reachesVideo hreaches value).cycles]
      exact Nat.min_le_right _ _
    · rw [(write_of_not_reachesVideo hreaches value).cycles]
      exact h
  elapse _ _ := Nat.min_le_right _ _

end Board

namespace Tia

theorem isPast_mono {s : Tia} {first second : Nat} (h : first ≤ second)
    (hpast : s.isPast first = true) : s.isPast second = true := by
  have hfirst : s.settings.ceiling.toNat < s.scanlines first := of_decide_eq_true hpast
  have hscanlines : s.scanlines first ≤ s.scanlines second := by
    simp only [scanlines, Beam.scanline, clockOf, clocksPerCycle, lineClocks]
    omega
  exact decide_eq_true (hfirst.trans_le hscanlines)

theorem isPast_congr {s t : Tia} (hsettings : t.settings = s.settings)
    (hstart : t.beam.frameStart = s.beam.frameStart) (cycles : Nat) :
    t.isPast cycles = s.isPast cycles := by
  unfold isPast scanlines Beam.scanline
  rw [hsettings, hstart]

theorem names_unique {address : UInt16} {register other : Register}
    (h : names address register = true) (hne : register ≠ other) : names address other = false := by
  simp only [names, decide_eq_true_eq, decide_eq_false_iff_not] at h ⊢
  rw [h]
  simpa using hne

end Tia

/-! ## Completing a frame -/

/-- A moment at which a write to vertical sync, at or below the scanline ceiling, ends the frame. -/
structure Moment.CompletesFrame (moment : Moment Board) : Prop where
  isSync : ∃ address value, moment.event = .write address value ∧
    Tia.names address .vsync = true
  belowCeiling : moment.bus.tia.scanlines moment.bus.cycles ≤ moment.bus.tia.settings.ceiling.toNat
  drawing : moment.bus.tia.frame.drawing = true
  ended : moment.after.tia.frame.drawing = false

namespace Board

/-- The frame is over and was not cut off, and further writes at this cycle do not cut it off. -/
structure Rests (b : Board) : Prop where
  ended : b.tia.frame.drawing = false
  intact : b.tia.frame.overrun = false
  afterWrite : b.afterRead = false
  belowCeiling : b.tia.isPast b.cycles = false

theorem Rests.write {b : Board} (h : b.Rests) (address : UInt16) (value : UInt8) :
    (b.write address value).Rests := by
  obtain ⟨past, released, hstep, hpast, -⟩ := b.write_frameStep address value
  have hbelow : past = false := by
    apply Bool.eq_false_iff.mpr
    intro htrue
    exact Bool.false_ne_true (h.belowCeiling.symm.trans (hpast htrue))
  have hcycles : (b.write address value).cycles ≤ b.cycles := by
    apply write_cycles_le
    rw [h.afterWrite, Bool.and_false]
  refine ⟨?_, ?_, write_afterRead b address value, ?_⟩
  · rw [hstep.drawing, h.ended]
    rfl
  · rw [hstep.overrun, h.intact, hbelow]
    rfl
  · rw [Tia.isPast_congr hstep.settings hstep.frameStart]
    apply Bool.eq_false_iff.mpr
    intro htrue
    exact Bool.false_ne_true (h.belowCeiling.symm.trans (Tia.isPast_mono hcycles htrue))

theorem Rests.replay {b : Board} (h : b.Rests) {events : List BusEvent}
    (hwrites : ∀ event ∈ events, event.isWrite = true) : (Vcs.replay b events).Rests := by
  induction events generalizing b with
  | nil => exact h
  | cons event rest ih =>
    obtain ⟨hfirst, hrest⟩ := List.forall_mem_cons.mp hwrites
    cases event with
    | elapse | read => exact absurd hfirst Bool.false_ne_true
    | write address value => exact ih (h.write address value) hrest

end Board

/-- Vertical sync that completes a frame leaves it at rest. -/
theorem Moment.CompletesFrame.rests {moment : Moment Board} (h : moment.CompletesFrame)
    (hintact : moment.bus.FrameIntact) : moment.after.Rests := by
  obtain ⟨⟨address, value, hevent, hsync⟩, hbelow, hdrawing, hended⟩ := h
  have hafter : moment.after = moment.bus.write address value := by
    rw [Moment.after, hevent]
    rfl
  have hnotPast : moment.bus.tia.isPast moment.bus.cycles = false := by
    simpa [Tia.isPast] using hbelow
  obtain ⟨past, released, hstep, hpast, -⟩ := moment.bus.write_frameStep address value
  rw [hafter] at hended ⊢
  have hcut : past = false := by
    apply Bool.eq_false_iff.mpr
    intro htrue
    exact Bool.false_ne_true (hnotPast.symm.trans (hpast htrue))
  have hcycles : (moment.bus.write address value).cycles ≤ moment.bus.cycles := by
    apply Board.write_cycles_le
    have hother : Tia.names address .wsync = false := Tia.names_unique hsync (by decide)
    rw [hother, Bool.false_and]
  refine ⟨hended, ?_, Board.write_afterRead _ address value, ?_⟩
  · rw [hstep.overrun, hintact hdrawing, hcut]
    rfl
  · rw [Tia.isPast_congr hstep.settings hstep.frameStart]
    apply Bool.eq_false_iff.mpr
    intro htrue
    exact Bool.false_ne_true (hnotPast.symm.trans (Tia.isPast_mono hcycles htrue))

namespace Board

theorem replay_frame_of_reads (b : Board) {events : List BusEvent}
    (h : ∀ event ∈ events, event.isWrite = false) :
    (replay b events).tia.frame.drawing = b.tia.frame.drawing ∧
      (replay b events).tia.frame.overrun = b.tia.frame.overrun := by
  induction events generalizing b with
  | nil => exact ⟨rfl, rfl⟩
  | cons event rest ih =>
    obtain ⟨hfirst, hrest⟩ := List.forall_mem_cons.mp h
    have hstep : b.FrameStep false false (event.apply b) := by
      cases event with
      | elapse cycles => exact b.elapse_frameStep cycles
      | read address value => exact b.read_frameStep address
      | write => exact absurd hfirst.symm Bool.false_ne_true
    obtain ⟨hdrawing, hoverrun⟩ := ih (event.apply b) hrest
    refine ⟨hdrawing.trans ?_, hoverrun.trans ?_⟩
    · rw [hstep.drawing, Bool.not_false, Bool.and_true, Bool.and_true]
    · rw [hstep.overrun, Bool.or_false]

/-- If a frame is over and was not cut off, sync has completed it at some moment. -/
theorem exists_completesFrame {b : Board} {events : List BusEvent}
    (hdrawing : b.tia.frame.drawing = true) (hover : (replay b events).tia.frame.drawing = false)
    (hintact : (replay b events).tia.frame.overrun = false) :
    ∃ moment ∈ moments b events, moment.CompletesFrame := by
  induction events generalizing b with
  | nil => exact absurd (hover.symm.trans hdrawing) Bool.false_ne_true
  | cons event rest ih =>
    rcases hnext : (event.apply b).tia.frame.drawing with _ | _
    · refine ⟨⟨b, event⟩, List.mem_cons_self, ?_⟩
      have hkept : (event.apply b).tia.frame.overrun = false := by
        apply Bool.eq_false_iff.mpr
        intro hcut
        have hend := keeps_overrun.replay hcut rest
        exact Bool.false_ne_true (hintact.symm.trans hend)
      cases event with
      | elapse cycles => exact absurd (hnext.symm.trans hdrawing) Bool.false_ne_true
      | read address value =>
        have hstep := (b.read_frameStep address).drawing
        rw [hdrawing] at hstep
        exact absurd (hnext.symm.trans hstep) Bool.false_ne_true
      | write address value =>
        obtain ⟨past, released, hstep, -, hreleased⟩ := b.write_frameStep address value
        have hcut : past = false := by
          have hoverrun := hstep.overrun.symm.trans hkept
          exact (Bool.or_eq_false_iff.mp hoverrun).2
        have hsync : released = true := by
          have hended := hstep.drawing.symm.trans hnext
          rw [hdrawing, hcut] at hended
          simpa using hended
        obtain ⟨hpast, hnames⟩ := hreleased hsync
        refine ⟨⟨address, value, rfl, hnames⟩, ?_, hdrawing, hnext⟩
        rw [hcut] at hpast
        simpa [Tia.isPast] using hpast.symm
    · obtain ⟨moment, hmem, hcompletes⟩ := ih hnext hover hintact
      exact ⟨moment, List.mem_cons_of_mem _ hmem, hcompletes⟩

end Board

namespace Processor

variable {p : Processor Board}

/-- An instruction leaves a frame over and not cut off exactly if it completes the frame. -/
theorem step_completes_iff (hdrawing : p.bus.tia.frame.drawing = true) (hintact : p.bus.FrameIntact) :
    (p.step.2.bus.tia.frame.drawing = false ∧ p.step.2.bus.tia.frame.overrun = false) ↔
      ∃ moment ∈ moments p.bus p.transcript, moment.CompletesFrame := by
  rw [step_bus]
  constructor
  · rintro ⟨hover, hkept⟩
    exact Board.exists_completesFrame hdrawing hover hkept
  · rintro ⟨moment, hmem, hcompletes⟩
    obtain ⟨before, writes, after, hparts, hbefore, hwrites, hafter⟩ := p.transcript_parts
    have hwritten : moment.event.isWrite = true := by
      obtain ⟨address, value, hevent, -⟩ := hcompletes.isSync
      rw [hevent]
      rfl
    have hnot {b : Board} {events : List BusEvent} (hreads : ∀ event ∈ events, event.isWrite = false) :
        moment ∉ moments b events := by
      intro hin
      exact Bool.false_ne_true ((hreads _ (event_mem_of_mem_moments hin)).symm.trans hwritten)
    rw [hparts, moments_append, moments_append] at hmem
    have hin : moment ∈ moments (replay p.bus before) writes := by
      rcases List.mem_append.mp hmem with hearly | hlate
      · exact (List.mem_append.mp hearly).resolve_left (hnot hbefore)
      · exact absurd hlate (hnot hafter)
    -- The writes behind it happen at the same cycle, and then there are only reads.
    obtain ⟨earlier, later, hsplit, hbus⟩ := mem_moments_iff.mp hin
    have hstart : moment.bus.FrameIntact := by
      rw [hbus]
      exact Board.keeps_frameIntact.replay (Board.keeps_frameIntact.replay hintact before) earlier
    have hrests : (replay moment.after later).Rests := by
      apply (hcompletes.rests hstart).replay
      intro event hmem
      rw [hsplit] at hwrites
      exact hwrites event (List.mem_append_right _ (List.mem_cons_of_mem _ hmem))
    have hend : replay p.bus p.transcript = replay (replay moment.after later) after := by
      rw [hparts, replay_append, replay_append, hsplit, replay_append, ← hbus]
      rfl
    obtain ⟨hover, hkept⟩ := Board.replay_frame_of_reads (replay moment.after later) hafter
    rw [hend, hover, hkept]
    exact ⟨hrests.ended, hrests.intact⟩

/-- Every instruction takes a cycle at least. -/
theorem step_cycles_lt (p : Processor Board) :
    min (p.bus.cycles + 1) Board.cycleLimit ≤ p.step.2.bus.cycles :=
  step_keeps (Board.keeps_le_cycles (Nat.min_le_right _ _)) (Nat.le_refl _)

/-- The board at the start of a run that a frame is in. -/
structure InFrame (p : Processor Board) : Prop where
  drawing : p.bus.tia.frame.drawing = true
  intact : p.bus.FrameIntact
  stop : p.bus.stop = false

theorem InFrame.step (h : p.InFrame) (hstop : p.step.2.bus.stop = false) : p.step.2.InFrame := by
  have hstops : p.bus.StopsWhenOver := by
    rw [Board.StopsWhenOver, h.stop, h.drawing]
    rfl
  have hnext : p.step.2.bus.StopsWhenOver := step_keeps Board.keeps_stopsWhenOver hstops
  rw [Board.StopsWhenOver, hstop] at hnext
  exact ⟨by simpa using hnext.symm, step_keeps Board.keeps_frameIntact h.intact, hstop⟩

/-- What a run makes of a frame that it finds in progress. -/
structure RunEnds (p : Processor Board) (budget : Nat) (last : Processor Board) : Prop where
  completes_iff : (last.bus.tia.frame.drawing = false ∧ last.bus.tia.frame.overrun = false) ↔
    ∃ moment ∈ p.runMoments budget, moment.CompletesFrame
  retired : last.bus.tia.frame.drawing = true → last.retired = p.retired + budget
  cycles_le : last.bus.tia.frame.drawing = true →
    min (p.bus.cycles + budget) Board.cycleLimit ≤ last.bus.cycles

theorem runFrom_ends (h : p.InFrame) {start budget count : Nat} {last : Processor Board}
    (hrun : p.runFrom start budget = (.ok count, last)) : p.RunEnds budget last := by
  induction budget generalizing p start with
  | zero =>
    obtain ⟨-, rfl⟩ := Prod.mk.inj hrun
    refine ⟨?_, fun _ ↦ rfl, fun _ ↦ Nat.min_le_left _ _⟩
    simp [runMoments, h.drawing]
  | succ budget ih =>
    have hcompletes := step_completes_iff h.drawing h.intact
    have htime := p.step_cycles_lt
    have hnext := h.step
    have hstops : p.step.2.bus.StopsWhenOver := by
      apply step_keeps Board.keeps_stopsWhenOver
      change p.bus.stop = !p.bus.tia.frame.drawing
      rw [h.stop, h.drawing]
      rfl
    rcases hresult : p.step with ⟨_ | cycles, next⟩
    · simp only [runFrom, hresult, Prod.mk.injEq, reduceCtorEq, false_and] at hrun
    · have hretired := step_retired hresult
      rw [hresult] at hcompletes htime hnext hstops
      simp only [runFrom, hresult] at hrun
      split at hrun
      · next hstop =>
        obtain ⟨-, rfl⟩ := Prod.mk.inj hrun
        have hover : next.bus.tia.frame.drawing = false := by
          have hboard : next.bus.stop = true := hstop
          rw [Board.StopsWhenOver, hboard] at hstops
          simpa using hstops.symm
        have hmoments : p.runMoments (budget + 1) = moments p.bus p.transcript := by
          simp only [runMoments, hresult, hstop, if_true, List.append_nil]
        refine ⟨?_, fun hdrawing ↦ ?_, fun hdrawing ↦ ?_⟩
        · rw [hmoments]
          exact hcompletes
        · exact absurd (hover.symm.trans hdrawing) Bool.false_ne_true
        · exact absurd (hover.symm.trans hdrawing) Bool.false_ne_true
      · next hstop =>
        have hgo : next.bus.stop = false := Bool.eq_false_iff.mpr hstop
        have hmoments : p.runMoments (budget + 1) =
            moments p.bus p.transcript ++ next.runMoments budget := by
          simp only [runMoments, hresult, if_neg hstop]
        have hin : next.InFrame := hnext hgo
        obtain ⟨hrest, hcount, hcycles⟩ := ih hin hrun
        have hnone : ¬ ∃ moment ∈ moments p.bus p.transcript, moment.CompletesFrame := by
          rw [← hcompletes]
          rintro ⟨hover, -⟩
          exact absurd (hover.symm.trans hin.drawing) Bool.false_ne_true
        refine ⟨?_, fun hdrawing ↦ ?_, fun hdrawing ↦ ?_⟩
        · rw [hrest, hmoments]
          simp only [List.mem_append, or_and_right, exists_or, hnone, false_or]
        · rw [hcount hdrawing, hretired]
          omega
        · have hlast := hcycles hdrawing
          dsimp only at htime
          omega

end Processor

namespace Board

/-- The counter has reached a cycle that is past the ceiling, and the frame was not over by then. -/
structure Late (count : Nat) (b : Board) : Prop where
  count_le : count ≤ b.cycles
  isPast : b.tia.isPast count = true
  unfinished : b.tia.frame.drawing = true ∨ b.tia.frame.overrun = true

theorem Late.of_frameStep {count : Nat} {b after : Board} {past released : Bool} (h : b.Late count)
    (hstep : b.FrameStep past released after) (hcut : released = true → past = true)
    (hcount : count ≤ after.cycles) : after.Late count := by
  refine ⟨hcount, ?_, ?_⟩
  · rw [Tia.isPast_congr hstep.settings hstep.frameStart]
    exact h.isPast
  · rw [hstep.drawing, hstep.overrun]
    have hunfinished := h.unfinished
    revert hcut
    cases past <;> cases released <;> simp_all

/-- Once it is late a frame can only be cut off. -/
theorem keeps_late {count : Nat} (hcount : count ≤ cycleLimit) : Bus.Keeps (Late count) where
  read {b} address h :=
    h.of_frameStep (b.read_frameStep address) (fun hsync ↦ absurd hsync Bool.false_ne_true)
      ((keeps_le_cycles hcount).read address h.count_le)
  write {b} address value h := by
    obtain ⟨past, released, hstep, -, hreleased⟩ := b.write_frameStep address value
    refine h.of_frameStep hstep ?_ ((keeps_le_cycles hcount).write address value h.count_le)
    intro hsync
    rw [(hreleased hsync).1]
    exact Tia.isPast_mono h.count_le h.isPast
  elapse {b} cycles h :=
    h.of_frameStep (b.elapse_frameStep cycles) (fun hsync ↦ absurd hsync Bool.false_ne_true)
      ((keeps_le_cycles hcount).elapse cycles h.count_le)

theorem keeps_isPast (count : Nat) : Bus.Keeps fun b : Board ↦ b.tia.isPast count = true := by
  apply keeps_of_frameStep
  intro b past released after hstep hpast
  rwa [Tia.isPast_congr hstep.settings hstep.frameStart]

end Board

namespace Machine

/-- Instructions of all slices of a call but the last. -/
abbrev lastSlice : Nat :=
  sliceInstructions * (sliceBudget - 1)

/-- After that many cycles a frame that has begun by cycle zero is past the ceiling of either format. -/
theorem isPast_lastSlice {s : Tia} (hceiling : s.settings.ceiling.toNat ≤ 342)
    (hstart : s.beam.frameStart ≤ 0) : s.isPast lastSlice = true := by
  have hscanlines : 2960 ≤ s.scanlines lastSlice := by
    have hcycles : lastSlice = 225000 := rfl
    simp only [Tia.scanlines, Tia.Beam.scanline, Tia.clockOf, Tia.clocksPerCycle, Tia.lineClocks,
      hcycles]
    omega
  exact decide_eq_true (by omega)

section Slices

variable {core next last : Processor Board} {count left : Nat}

/-- A slice at whose end the frame is unfinished has been executed in full. -/
theorem runSlice_ends (hdrawing : core.bus.tia.frame.drawing = true)
    (hintact : core.bus.FrameIntact) (hslice : runSlice core = (.ok count, next)) :
    Processor.RunEnds { core with bus := { core.bus with stop := false } } sliceInstructions next := by
  have hstart : Processor.InFrame { core with bus := { core.bus with stop := false } } :=
    ⟨hdrawing, hintact, rfl⟩
  exact Processor.runFrom_ends hstart hslice

theorem runSlice_keeps {I : Board → Prop} (h : Bus.Keeps I) (hstart : I { core.bus with stop := false })
    (hslice : runSlice core = (.ok count, next)) : I next.bus := by
  have hend : I (runSlice core).2.bus := Processor.runFrom_keeps h hstart 0 sliceInstructions
  rwa [hslice] at hend

/-- What the slices of a call make of the frame that is in progress. -/
structure SlicesEnd (core : Processor Board) (budget left : Nat) (last : Processor Board) : Prop where
  completes_iff : (last.bus.tia.frame.drawing = false ∧ last.bus.tia.frame.overrun = false) ↔
    ∃ moment ∈ sliceMoments core budget, moment.CompletesFrame
  retired : last.bus.tia.frame.drawing = true →
    last.retired = core.retired + sliceInstructions * budget
  ended : left ≠ 0 → last.bus.tia.frame.drawing = false

theorem runSlices_ends (hdrawing : core.bus.tia.frame.drawing = true)
    (hintact : core.bus.FrameIntact) {budget : Nat} (hrun : runSlices core budget = (.ok left, last)) :
    SlicesEnd core budget left last := by
  induction budget generalizing core with
  | zero =>
    obtain ⟨hleft, rfl⟩ := Prod.mk.inj hrun
    refine ⟨?_, fun _ ↦ rfl, fun hne ↦ absurd (Except.ok.inj hleft).symm hne⟩
    simp [sliceMoments, hdrawing]
  | succ budget ih =>
    rcases hslice : runSlice core with ⟨_ | count, next⟩
    · simp only [runSlices, hslice, Prod.mk.injEq, reduceCtorEq, false_and] at hrun
    · have hends := runSlice_ends hdrawing hintact hslice
      simp only [runSlices, hslice] at hrun
      rcases hnext : next.bus.tia.frame.drawing with _ | _
      · rw [hnext, if_neg Bool.false_ne_true] at hrun
        obtain ⟨-, rfl⟩ := Prod.mk.inj hrun
        have hmoments : sliceMoments core (budget + 1) =
            { core with bus := { core.bus with stop := false } }.runMoments sliceInstructions := by
          simp only [sliceMoments, hslice, hnext, Bool.false_eq_true, if_false, List.append_nil]
        refine ⟨?_, fun hstill ↦ absurd (hnext.symm.trans hstill) Bool.false_ne_true, fun _ ↦ hnext⟩
        rw [hmoments]
        exact hends.completes_iff
      · rw [hnext, if_pos rfl] at hrun
        have hrest := ih hnext (runSlice_keeps Board.keeps_frameIntact hintact hslice) hrun
        have hnone := mt hends.completes_iff.mpr fun hover ↦
          absurd (hover.1.symm.trans hnext) Bool.false_ne_true
        refine ⟨?_, fun hstill ↦ ?_, hrest.ended⟩
        · rw [hrest.completes_iff]
          simp only [sliceMoments, hslice, hnext, if_true, List.mem_append, or_and_right, exists_or,
            hnone, false_or]
        · have hretired : next.retired = core.retired + sliceInstructions := hends.retired hnext
          rw [hrest.retired hstill, hretired, Nat.mul_succ]
          omega

/-- A frame that takes the last slice of a call is left unfinished or cut off. -/
theorem runSlices_exhausted (hdrawing : core.bus.tia.frame.drawing = true)
    (hintact : core.bus.FrameIntact) (hpast : core.bus.tia.isPast lastSlice = true) {budget : Nat}
    (hlate : lastSlice + sliceInstructions ≤ core.bus.cycles + sliceInstructions * budget)
    (hrun : runSlices core budget = (.ok 0, last)) :
    last.bus.tia.frame.drawing = true ∨ last.bus.tia.frame.overrun = true := by
  induction budget generalizing core with
  | zero =>
    obtain ⟨-, rfl⟩ := Prod.mk.inj hrun
    exact .inl hdrawing
  | succ budget ih =>
    rcases hslice : runSlice core with ⟨_ | count, next⟩
    · simp only [runSlices, hslice, Prod.mk.injEq, reduceCtorEq, false_and] at hrun
    · simp only [runSlices, hslice] at hrun
      split at hrun
      · next hnext =>
        have hcycles : min (core.bus.cycles + sliceInstructions) Board.cycleLimit ≤ next.bus.cycles :=
          (runSlice_ends hdrawing hintact hslice).cycles_le hnext
        refine ih hnext (runSlice_keeps Board.keeps_frameIntact hintact hslice)
          (runSlice_keeps (Board.keeps_isPast lastSlice) hpast hslice) ?_ hrun
        have hlimit : lastSlice + sliceInstructions ≤ Board.cycleLimit := by decide
        rw [Nat.mul_succ] at hlate
        omega
      · obtain ⟨hbudget, rfl⟩ := Prod.mk.inj hrun
        have hzero : budget = 0 := Except.ok.inj hbudget
        subst hzero
        have hstart : Board.Late lastSlice { core.bus with stop := false } := by
          refine ⟨?_, hpast, .inl hdrawing⟩
          change lastSlice ≤ core.bus.cycles
          omega
        exact (runSlice_keeps (Board.keeps_late (by decide)) hstart hslice).unfinished

end Slices

/-! ## Frames -/

/-- A call of the frame pump that does not fail says truthfully how its frame ended. -/
theorem processFrame_status {m : Machine} (h : Reachable m) :
    match m.processFrame with
    | (.error _, _) => True
    | (.ok status, next) =>
      (status = .complete ↔
        next.board.tia.frame.drawing = false ∧ next.board.tia.frame.overrun = false) ∧
      (status = .complete ↔ ∃ moment ∈ m.frameMoments, moment.CompletesFrame) ∧
      (next.board.tia.frame.drawing = true → next.core.retired = m.core.retired + 250000) := by
  have hkept := openFrame_kept h.kept
  have hdrawing := m.openFrame_drawing
  have hpast : m.openFrame.board.tia.isPast lastSlice = true := by
    apply isPast_lastSlice _ hkept.frameStart_le
    rw [hkept.settings_eq]
    change m.television.ceiling.toNat ≤ 342
    cases m.television <;> decide
  unfold processFrame
  dsimp only
  rcases hrun : runSlices m.openFrame.core sliceBudget with ⟨_ | left, core⟩
  · trivial
  · have hends := runSlices_ends hdrawing hkept.intact hrun
    obtain ⟨hover, hcut, hretired, hcomplete⟩ :=
      closeFrame_closes { m.openFrame with core := core } left
    have hstatus : left ≠ 0 ∧ core.bus.tia.frame.overrun = false ↔
        core.bus.tia.frame.drawing = false ∧ core.bus.tia.frame.overrun = false := by
      refine and_congr_left fun hintact ↦ ⟨hends.ended, ?_⟩
      rintro hended rfl
      rcases runSlices_exhausted hdrawing hkept.intact hpast (Nat.le_add_left _ _) hrun with hstill | hcutOff
      · exact Bool.false_ne_true (hended.symm.trans hstill)
      · exact Bool.false_ne_true (hintact.symm.trans hcutOff)
    dsimp only
    refine ⟨?_, ?_, ?_⟩
    · rw [hcomplete, hover, hcut]
      exact hstatus
    · exact hcomplete.trans (hstatus.trans hends.completes_iff)
    · rw [hover, hretired, ← m.openFrame_retired]
      exact hends.retired

/-- A jump to itself never writes to vertical sync, so its first frame takes every instruction. -/
theorem processFrame_status_of_selfJump :
    let m := running selfJump {} (Riot.new 0) {}
    m.processFrame.1 = .ok .overrun ∧ m.processFrame.2.board.tia.frame.drawing = true ∧
      (¬ ∃ moment ∈ m.frameMoments, moment.CompletesFrame) ∧
        m.processFrame.2.core.retired = m.core.retired + 250000 := by
  have hreachable := running_reachable selfJump {} (Riot.new 0) {}
  obtain ⟨hresult, -, hdrawing, -⟩ := processFrame_of_spins (running_spins {} (Riot.new 0) {})
  dsimp only
  generalize running selfJump {} (Riot.new 0) {} = m at hreachable hresult hdrawing ⊢
  have hstatus := processFrame_status hreachable
  rcases hframe : m.processFrame with ⟨result, next⟩
  rw [hframe] at hstatus hresult hdrawing
  cases hresult
  obtain ⟨-, hcompletes, hretired⟩ := hstatus
  exact ⟨rfl, hdrawing, mt hcompletes.mpr (by decide), hretired hdrawing⟩

end Machine

end Vcs
