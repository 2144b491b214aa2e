import Vcs.Proofs.Tia.Passage

/-!
# The Motion Blank

A motion strobe at the start of a line, or on the last cycle of the line before, blanks the first eight columns
of the line.  The chip remembers one bit of this, and whichever stretch of the picture happens to cross the
eighth column clears it.  Main statement: in a run of accesses the bit is set in the columns of an edge exactly
if a strobe has asked for that edge, and no other column is touched, however the accesses cut the line.

The bit always speaks of one edge, the next one that the beam is not yet through with.  A strobe that asks for an
edge speaks of the same one: the beam may be some clocks ahead of it, but never as far as a column of the edge.
-/

namespace Vcs.Tia

/-- Row of the edge that the beam is not yet through with. -/
def Beam.edge (beam : Beam) : Int :=
  (beam.swept + (lineClocks - edgeClocks : Nat)) / lineClocks

/-- A tick leaves an edge with its eighth column, and then the blank is over. -/
theorem tick_edge {s : Tia} (h : s.beam.InStep) :
    (s.tick.blankPending = false ∧ s.tick.beam.edge = s.beam.edge + 1) ∨
      (s.tick.blankPending = s.blankPending ∧ s.tick.beam.edge = s.beam.edge) := by
  have hclock := h.nextClock_eq
  simp only [Beam.edge, tick_swept, tick_blankPending, edgeClocks, lineClocks, blankClocks] at *
  by_cases hlast : s.beam.nextClock = 75
  · exact .inl ⟨by simp [hlast], by omega⟩
  · exact .inr ⟨by simp [hlast], by omega⟩

/-- At a column of an edge the beam is not through with it. -/
theorem Beam.edge_of_pixel {beam : Beam} {row column : Nat} (hcolumn : column < 8)
    (hnow : beam.drawnTo = beam.pixelClock row column) : beam.edge = row := by
  simp only [edge, swept, pixelClock, edgeClocks, lineClocks, blankClocks] at *
  omega

theorem three_dvd_clockOf (cycles : Nat) : (3 : Int) ∣ clockOf cycles := by
  simp only [clockOf, clocksPerCycle]
  omega

theorem Beam.lineCycle_eq (beam : Beam) (clock : Int) :
    (beam.lineCycle clock : Int) = (clock - beam.frameStart) % 228 / 3 := by
  simp only [lineCycle, lineClock, lineClocks, clocksPerCycle]
  omega

/-- A motion strobe that asks for the edge of a scanline to be blank: it falls on one of the first cycles of the
line or on the last cycle of the line before. -/
def Access.BlanksEdge (request : Access) (beam : Beam) (line : Int) : Prop :=
  request.register? = some .hmove ∧
    (beam.scanline (clockOf request.cycles) = line ∧
        beam.lineCycle (clockOf request.cycles) ≤ 20 ∨
      beam.scanline (clockOf request.cycles) = line - 1 ∧
        beam.lineCycle (clockOf request.cycles) = 75)

instance (request : Access) (beam : Beam) (line : Int) : Decidable (request.BlanksEdge beam line) :=
  inferInstanceAs (Decidable (_ ∧ _))

theorem Access.blanksEdge_congr (request : Access) {beam other : Beam}
    (h : beam.frameStart = other.frameStart) (line : Int) :
    request.BlanksEdge beam line ↔ request.BlanksEdge other line := by
  simp only [BlanksEdge, Beam.scanline, Beam.lineCycle, Beam.lineClock, h]

/-- A motion strobe takes effect at once. -/
theorem reachOf_of_motion (s : Tia) {request : Access} (h : request.register? = some .hmove) :
    s.reachOf request = clockOf request.cycles := by
  simp [reachOf, h, Register.player?, Register.delayOn, Register.delay?]

section Strobe

variable {settings : Settings} {s : Tia} (h : InFrame settings s)
  (hthird : (3 : Int) ∣ s.beam.frameStart) {request : Access}

include h hthird

/-- The edge that a strobe asks for is the next one when the beam is there, or not far ahead. -/
theorem blanksEdge_iff {row : Int} (hrow : row < settings.height.toNat)
    (hfrom : min (clockOf request.cycles) s.beam.displayStop ≤ s.beam.drawnTo)
    (hto : s.beam.drawnTo ≤ clockOf request.cycles + 8) :
    request.BlanksEdge s.beam (settings.yStart.toNat + row) ↔
      request.register? = some .hmove ∧
        Motion.blanksEdge (s.beam.lineCycle (clockOf request.cycles)) = true ∧
        s.beam.edge = row := by
  have hwindow := h.displayStart_eq
  have hheight := h.displayStop_eq
  have hclock := three_dvd_clockOf request.cycles
  have hcycle := s.beam.lineCycle_eq (clockOf request.cycles)
  unfold Access.BlanksEdge
  refine and_congr_right fun _ ↦ ?_
  simp only [Motion.blanksEdge, Beam.edge, Beam.swept, Beam.scanline, Bool.or_eq_true,
    decide_eq_true_eq, beq_iff_eq, edgeClocks, lineClocks, blankClocks] at *
  omega

/-- So it is for a beam that has gone on to the strobe. -/
theorem blanksEdge_iff_reached {row : Int} (hrow : row < settings.height.toNat)
    (hto : s.beam.drawnTo ≤ clockOf request.cycles + 8) :
    let caught := s.catchUp (s.reachOf request)
    request.BlanksEdge s.beam (settings.yStart.toNat + row) ↔
      request.register? = some .hmove ∧
        Motion.blanksEdge (caught.beam.lineCycle (clockOf request.cycles)) = true ∧
        caught.beam.edge = row := by
  intro caught
  have hcaught : InFrame settings caught := h.catchUp _
  have hstamps : caught.beam.stamps = s.beam.stamps := h.stamps_catchUp _
  obtain ⟨hstart, -, hstop⟩ := Beam.stamps_eq_iff.mp hstamps
  rw [← request.blanksEdge_congr hstart]
  by_cases hmotion : request.register? = some .hmove
  · have hdrawn : caught.beam.drawnTo =
        max s.beam.drawnTo (min (clockOf request.cycles) s.beam.displayStop) := by
      rw [← s.reachOf_of_motion hmotion]
      exact h.drawnTo_catchUp _
    exact blanksEdge_iff hcaught (hstart ▸ hthird) hrow (by omega) (by omega)
  · simp only [Access.BlanksEdge, hmotion, false_and]

/-- A strobe that asks for an edge comes before its columns. -/
theorem blanksEdge_before {row : Nat} (column : Nat)
    (hasks : request.BlanksEdge s.beam (settings.yStart.toNat + row)) :
    clockOf request.cycles + 8 ≤ s.beam.pixelClock row column := by
  have hwindow := h.displayStart_eq
  have hclock := three_dvd_clockOf request.cycles
  have hcycle := s.beam.lineCycle_eq (clockOf request.cycles)
  unfold Access.BlanksEdge at hasks
  simp only [Beam.pixelClock, Beam.scanline, lineClocks, blankClocks] at *
  omega

end Strobe

/-- Motion strobes alone ask for a blank. -/
theorem settle_blankPending (s : Tia) (request : Access) :
    (s.settle request).blankPending = (s.blankPending ||
      request.register? = some .hmove &&
        (s.settings.motionBlanks &&
          Motion.blanksEdge (s.beam.lineCycle (clockOf request.cycles)))) := by
  by_cases hmotion : request.register? = some .hmove
  · cases request with
    | read => exact absurd hmotion.symm (Option.some_ne_none _)
    | write cycles afterRead address value =>
      have hregister : Register.ofAddress? address.toUInt8 = some .hmove := hmotion
      simp only [settle, hregister, Access.register?, Register.player?, decide_true, Bool.true_and]
      rfl
  · rw [decide_eq_false hmotion, Bool.false_and, Bool.or_false]
    refine s.settle_part Tia.blankPending (fun _ ↦ rfl) (fun _ _ _ _ ↦ rfl) ?_
      fun _ _ _ _ _ ↦ rfl
    intro t register previous value clock cycles afterRead response hregister hplayer
    cases register with
    | hmove => exact absurd hregister hmotion
    | resp0 | resp1 => exact absurd hplayer (by decide)
    | vsync =>
      simp only [actOn, writeSync]
      split_ifs <;> rfl
    | refp0 | refp1 =>
      simp only [actOn, writeReflection]
      split <;> rfl
    | hmm0 =>
      simp only [actOn]
      split <;> rfl
    | _ => rfl

/-- One of the accesses asks for the edge of a row to be blank. -/
def AsksEdge (settings : Settings) (beam : Beam) (done : List Access) (row : Int) : Prop :=
  ∃ request ∈ done, request.BlanksEdge beam (settings.yStart.toNat + row)

instance (settings : Settings) (beam : Beam) (done : List Access) (row : Int) :
    Decidable (AsksEdge settings beam done row) :=
  inferInstanceAs (Decidable (∃ request ∈ done, _))

theorem asksEdge_singleton {settings : Settings} {beam : Beam} {request : Access} {row : Int} :
    AsksEdge settings beam [request] row ↔
      request.BlanksEdge beam (settings.yStart.toNat + row) := by
  simp only [AsksEdge, List.mem_singleton, exists_eq_left]

theorem asksEdge_append {settings : Settings} {beam : Beam} {first second : List Access} {row : Int} :
    AsksEdge settings beam (first ++ second) row ↔
      AsksEdge settings beam first row ∨ AsksEdge settings beam second row := by
  simp only [AsksEdge, List.mem_append, or_and_right, exists_or]

/-- The pending blank tells whether the next edge has been asked for, and no later one has been. -/
structure TellsEdge (settings : Settings) (asked : Int → Prop) (s : Tia) : Prop where
  pending : s.beam.edge < settings.height.toNat → (s.blankPending ↔ asked s.beam.edge)
  past : ∀ row < (settings.height.toNat : Int), asked row → row ≤ s.beam.edge

namespace TellsEdge

variable {settings : Settings} {s : Tia}

theorem tick {asked : Int → Prop} (h : TellsEdge settings asked s) (hstep : s.beam.InStep) :
    TellsEdge settings asked s.tick := by
  rcases tick_edge hstep with ⟨hpending, hedge⟩ | ⟨hpending, hedge⟩
  · refine ⟨fun hrow ↦ ?_, fun row hrow hasked ↦ ?_⟩
    · have hnone : ¬ asked s.tick.beam.edge := by
        intro hasked
        have := h.past _ hrow hasked
        omega
      simp [hpending, hnone]
    · have := h.past row hrow hasked
      omega
  · refine ⟨?_, ?_⟩
    · rw [hpending, hedge]
      exact h.pending
    · rw [hedge]
      exact h.past

theorem catchUp {asked : Int → Prop} (h : TellsEdge settings asked s) (hframe : InFrame settings s)
    (clock : Int) : TellsEdge settings asked (s.catchUp clock) :=
  hframe.catchUp_induction clock h fun _ hstep ht ↦ ht.tick hstep

/-- An access that the beam is not far ahead of. -/
theorem perform {beam : Beam} {done : List Access} {request : Access}
    (h : TellsEdge settings (AsksEdge settings beam done) s) (hframe : InFrame settings s)
    (hsame : s.beam.frameStart = beam.frameStart) (hthird : (3 : Int) ∣ beam.frameStart)
    (hblanks : settings.motionBlanks = true)
    (hto : s.beam.drawnTo ≤ clockOf request.cycles + 8) :
    TellsEdge settings (AsksEdge settings beam (done ++ [request])) (s.perform request).2 := by
  let caught := s.catchUp (s.reachOf request)
  have hcaught : InFrame settings caught := hframe.catchUp _
  have htells : TellsEdge settings (AsksEdge settings beam done) caught := h.catchUp hframe _
  have hasks (row : Int) (hrow : row < settings.height.toNat) :
      AsksEdge settings beam [request] row ↔ request.register? = some .hmove ∧
        Motion.blanksEdge (caught.beam.lineCycle (clockOf request.cycles)) = true ∧
        caught.beam.edge = row := by
    rw [asksEdge_singleton, ← request.blanksEdge_congr hsame]
    exact blanksEdge_iff_reached hframe (hsame ▸ hthird) hrow hto
  have hbeam : (caught.settle request).beam = caught.beam := caught.settle_beam request
  have hpending := caught.settle_blankPending request
  rw [hcaught.settings_eq, hblanks, Bool.true_and] at hpending
  rw [perform_eq_settle hframe.inStep.lineLeft_le]
  change TellsEdge settings _ (caught.settle request)
  refine ⟨fun hrow ↦ ?_, fun row hrow hasked ↦ ?_⟩
  · rw [hbeam] at hrow ⊢
    rw [hpending, asksEdge_append, hasks _ hrow, ← htells.pending hrow]
    simp
  · rw [hbeam]
    rcases asksEdge_append.mp hasked with hbefore | hnow
    · exact htells.past row hrow hbefore
    · exact ((hasks row hrow).mp hnow).2.2.ge

end TellsEdge

/-- Accesses that come one after the other, while the beam is not further ahead of those inside the window than an
access at an earlier cycle lets it go. -/
structure KeepsPace (s : Tia) (run : List Access) : Prop where
  ordered : run.Pairwise fun first second ↦ first.cycles < second.cycles
  behind : ∀ request ∈ run, s.beam.displayStart ≤ clockOf request.cycles →
    s.beam.drawnTo ≤ clockOf request.cycles + 8

/-- At the beginning of a frame the beam is ahead of nobody. -/
theorem beginFrame_keepsPace (s : Tia) (carry : Int) {run : List Access}
    (hordered : run.Pairwise fun first second ↦ first.cycles < second.cycles) :
    KeepsPace (s.beginFrame carry) run := by
  refine ⟨hordered, fun request _ hinside ↦ ?_⟩
  have hstart : (s.beginFrame carry).beam.drawnTo = (s.beginFrame carry).beam.displayStart := rfl
  omega

namespace KeepsPace

variable {settings : Settings} {s : Tia} (h : InFrame settings s)

include h

theorem perform {request : Access} {rest : List Access} (hrun : KeepsPace s (request :: rest)) :
    KeepsPace (s.perform request).2 rest := by
  obtain ⟨hlater, hrest⟩ := List.pairwise_cons.mp hrun.ordered
  refine ⟨hrest, fun later hmem hinside ↦ ?_⟩
  obtain ⟨-, hstart, -⟩ := Beam.stamps_eq_iff.mp (stamps_perform h request)
  have hnow := hrun.behind later (List.mem_cons_of_mem _ hmem) (hstart ▸ hinside)
  have hcycles := hlater later hmem
  have hreach := (s.reachOf_le request).2
  rw [drawnTo_perform h]
  simp only [clockOf, clocksPerCycle] at *
  omega

theorem play {first rest : List Access} (hrun : KeepsPace s (first ++ rest)) :
    KeepsPace (s.play (first.map .access)) rest := by
  induction first generalizing s with
  | nil => exact hrun
  | cons request first ih => exact ih (h.apply (.access request)) (hrun.perform h)

end KeepsPace

/-- The frame of a run of accesses stays where it is. -/
theorem stamps_play {settings : Settings} {s : Tia} (h : InFrame settings s) (run : List Access) :
    (s.play (run.map .access)).beam.stamps = s.beam.stamps := by
  induction run generalizing s with
  | nil => rfl
  | cons request rest ih => exact (ih (h.apply (.access request))).trans (stamps_perform h request)

/-- All along a run inside the window the pending blank tells what has been asked for. -/
theorem TellsEdge.play {settings : Settings} {s : Tia} (h : InFrame settings s) {beam : Beam}
    (hsame : s.beam.stamps = beam.stamps) (hthird : (3 : Int) ∣ beam.frameStart)
    (hblanks : settings.motionBlanks = true) {done first rest : List Access}
    (hrun : KeepsPace s (first ++ rest))
    (hinside : ∀ request ∈ first, beam.displayStart ≤ clockOf request.cycles)
    (htells : TellsEdge settings (AsksEdge settings beam done) s) :
    TellsEdge settings (AsksEdge settings beam (done ++ first)) (s.play (first.map .access)) := by
  induction first generalizing s done with
  | nil => rwa [List.append_nil]
  | cons request first ih =>
    obtain ⟨hframe, hstart, -⟩ := Beam.stamps_eq_iff.mp hsame
    have hnow := hrun.behind request List.mem_cons_self (by
      rw [hstart]
      exact hinside request List.mem_cons_self)
    have hnext := ih (h.apply (.access request)) ((stamps_perform h request).trans hsame)
      (hrun.perform h) (fun later hmem ↦ hinside later (List.mem_cons_of_mem _ hmem))
      (htells.perform h hframe hthird hblanks hnow)
    rwa [List.append_assoc, List.singleton_append] at hnext

/-- Once the beam has passed a column of an edge, nobody asks for that edge. -/
theorem not_asksEdge {settings : Settings} {s : Tia} (h : InFrame settings s)
    (hthird : (3 : Int) ∣ s.beam.frameStart) {request : Access}
    {rest : List Access} (hrun : KeepsPace s (request :: rest))
    (hinside : ∀ later ∈ request :: rest, s.beam.displayStart ≤ clockOf later.cycles)
    {row column : Nat} (hnot : ¬ s.beam.HasPassed row column)
    (hpassed : (s.perform request).2.beam.HasPassed row column) :
    ¬ AsksEdge settings s.beam (request :: rest) row := by
  rintro ⟨later, hmem, hasks⟩
  have hbefore := blanksEdge_before h hthird column hasks
  rw [Beam.HasPassed, pixelClock_perform h] at hpassed
  rcases List.mem_cons.mp hmem with rfl | hrest
  · rw [drawnTo_perform h, s.reachOf_of_motion hasks.1] at hpassed
    rw [Beam.HasPassed] at hnot
    omega
  · obtain ⟨-, hstart, -⟩ := Beam.stamps_eq_iff.mp (stamps_perform h request)
    have hbehind := (hrun.perform h).behind later hrest (hstart ▸ hinside later hmem)
    omega

theorem shade_of_forced (s : Tia) (column : Nat) :
    s.shade column =
      if s.blankPending ∧ column < 8 then 0 else { s with blankPending := false }.shade column := by
  by_cases hforced : s.blankPending ∧ column < 8
  · simp [shade, hforced]
  · have hfree : (s.blankPending && decide (column < 8)) = false := by
      simpa using hforced
    rw [if_neg hforced, shade, shade, hfree]
    rfl

section Run

variable {settings : Settings} {s : Tia} (h : InFrame settings s)
  (hthird : (3 : Int) ∣ s.beam.frameStart) (hblanks : settings.motionBlanks = true)
  (hclear : s.blankPending = false) {run : List Access} (hrun : KeepsPace s run)
  (hinside : ∀ request ∈ run, s.beam.displayStart ≤ clockOf request.cycles)

include h hthird hblanks hclear hrun hinside

/-- The chip that draws a column of an edge has a blank pending if the run asks for that edge. -/
theorem Draws.blankPending_iff {chip : Tia} {row column : Nat} (hrow : row < settings.height.toNat)
    (hedge : column < 8) (hchip : s.Draws (run.map .access) row column chip) :
    chip.blankPending ↔ AsksEdge settings s.beam run row := by
  have hcolumn : column < frameWidth := Nat.lt_trans hedge (by decide)
  have hnow := (hchip.now h hrow hcolumn).2
  obtain ⟨count, ⟨hlength, hnot, hpassed⟩, rfl⟩ := hchip
  rw [List.length_map] at hlength
  rw [play_take_succ s (by rwa [List.length_map]), List.getElem_map] at hpassed
  rw [← List.map_take] at hnot hpassed hnow ⊢
  -- What is done is known as the pixel is drawn, what is still to come does not ask for its edge.
  have hsplit : run.take count ++ run[count] :: run.drop (count + 1) = run := by
    rw [← List.drop_eq_getElem_cons hlength, List.take_append_drop]
  have hstart : TellsEdge settings (AsksEdge settings s.beam []) s :=
    ⟨fun _ ↦ by simp [hclear, AsksEdge], fun _ _ hasked ↦ absurd hasked (by simp [AsksEdge])⟩
  have hpace := KeepsPace.play h (hsplit.symm ▸ hrun)
  have htells := hstart.play h rfl hthird hblanks (hsplit.symm ▸ hrun) fun request hmem ↦
    hinside request (List.mem_of_mem_take hmem)
  have hreached := h.play ((run.take count).map FrameStep.access)
  obtain ⟨hframe, hwindow, -⟩ := Beam.stamps_eq_iff.mp (stamps_play h (run.take count))
  generalize s.play ((run.take count).map .access) = reached at *
  have hlater : ¬ AsksEdge settings s.beam (run[count] :: run.drop (count + 1)) row := by
    have hnone := not_asksEdge hreached (hframe ▸ hthird) hpace (fun later hmem ↦ ?_) hnot hpassed
    · simpa only [AsksEdge, Access.blanksEdge_congr _ hframe] using hnone
    · rw [hwindow]
      exact hinside later (hsplit ▸ List.mem_append_right _ hmem)
  have hpending := (htells.catchUp hreached (reached.beam.pixelClock row column)).pending
  rw [Beam.edge_of_pixel hedge hnow] at hpending
  calc
    (reached.catchUp (reached.beam.pixelClock row column)).blankPending ↔
        AsksEdge settings s.beam (run.take count) row := hpending (by exact_mod_cast hrow)
    _ ↔ AsksEdge settings s.beam (run.take count ++ run[count] :: run.drop (count + 1)) row := by
      rw [asksEdge_append, or_iff_left hlater]
    _ ↔ AsksEdge settings s.beam run row := by rw [hsplit]

/-- Motion strobes blank the edges they ask for and nothing else.  In a run of accesses inside the window, no blank
being pending at its start, a pixel that the beam passes is black by a motion blank if and only if it is one of
the first eight of its line and a strobe of the run fell on cycles 0 to 20 of that line or on cycle 75 of the
line before; every other pixel has the colour it has without motion blanks. -/
theorem motion_blanks_edge (row column : Nat) (hrow : row < settings.height.toNat)
    (hcolumn : column < frameWidth) (hfrom : ¬ s.beam.HasPassed row column)
    (hto : (s.play (run.map .access)).beam.HasPassed row column) :
    ∃ chip, s.Draws (run.map .access) row column chip ∧
      (chip.blankPending ∧ column < 8 ↔ AsksEdge settings s.beam run row ∧ column < 8) ∧
      (s.play (run.map .access)).video.current[pixelIndex row column]? =
        s.video.current[pixelIndex row column]?.map fun _ ↦
          if AsksEdge settings s.beam run row ∧ column < 8 then 0
          else { chip with blankPending := false }.shade column := by
  obtain ⟨chip, hchip⟩ := exists_draws h hcolumn hfrom hto
  have hforced : chip.blankPending ∧ column < 8 ↔ AsksEdge settings s.beam run row ∧ column < 8 :=
    and_congr_left fun hedge ↦
      hchip.blankPending_iff h hthird hblanks hclear hrun hinside hrow hedge
  refine ⟨chip, hchip, hforced, ?_⟩
  rw [hchip.pixel h hrow hcolumn, chip.shade_of_forced]
  simp only [hforced]

end Run

/-- A strobe on cycle 75 of line 1 blanks the edge of line 2; the one before it, on cycle 21, blanks none. -/
theorem motion_blanks_edge_of_lastCycle :
    let s := (Tia.new {}).started { yStart := 0, height := 4 }
    let run : List Access :=
      [.write 0 true 0x09 0x1E, .write 97 true 0x2A 0, .write 151 true 0x2A 0, .read 304 0 {} 0x02]
    KeepsPace s run ∧ (∀ request ∈ run, s.beam.displayStart ≤ clockOf request.cycles) ∧
      (s.play (run.map .access)).video.current[pixelIndex 2 7]? = some 0 ∧
      ∃ chip, s.Draws (run.map .access) 1 7 chip ∧ chip.blankPending = false := by
  intro s run
  have hframe := started_inFrame (Tia.new {}) { yStart := 0, height := 4 }
  have hrun : KeepsPace s run := beginFrame_keepsPace _ 0 (by decide)
  have hinside : ∀ request ∈ run, s.beam.displayStart ≤ clockOf request.cycles := by decide +kernel
  have hblanks := motion_blanks_edge hframe (by decide) (by decide) rfl hrun hinside
  obtain ⟨_, -, -, hpixel⟩ :=
    hblanks 2 7 (by decide) (by decide) (by decide +kernel) (by decide +kernel)
  obtain ⟨chip, hchip, hforced, -⟩ :=
    hblanks 1 7 (by decide) (by decide) (by decide +kernel) (by decide +kernel)
  have hasked : AsksEdge (Settings.clamped { yStart := 0, height := 4 }) s.beam run 2 := by
    decide +kernel
  have hnone : ¬ AsksEdge (Settings.clamped { yStart := 0, height := 4 }) s.beam run 1 := by
    decide +kernel
  refine ⟨hrun, hinside, ?_, chip, hchip, ?_⟩
  · refine hpixel.trans ?_
    rw [started_pixel (Tia.new {}) (by decide) (by decide)]
    exact congrArg some (if_pos ⟨hasked, by decide⟩)
  · exact Bool.eq_false_iff.mpr fun hpending ↦ hnone (hforced.mp ⟨hpending, by decide⟩).1

end Vcs.Tia
