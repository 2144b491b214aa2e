import Vcs.Proofs.Tia.SideBySide

/-!
# The Display Window

The display window decides which scanlines end up in the frame buffer.  It decides a little more than that:
the beam does not move outside of the window, and neither does what lines age.  A motion blank that was asked
for above the window is still pending on its first line, a player strobed there still waits, and the star
field stands still.

Here are two chips that differ in their windows and to which the same is done.  Main statement: on every
scanline that both show they draw the same, except for the missile of a star field and for the first line of
the later window.  There they do if, as the beam gets there, both have the same motion blank pending and the
same copies waiting; and the star field makes no difference if missile 0 stands where it does in the other.
-/

namespace Vcs.Tia

instance (beam : Beam) (row column : Nat) : Decidable (beam.HasPassed row column) :=
  inferInstanceAs (Decidable (_ < _))

instance (start : Tia) (steps : List FrameStep) (row column count : Nat) :
    Decidable (PassesAt start steps row column count) :=
  inferInstanceAs (Decidable (_ ∧ _))

/-- The beam has passed the first pixel of the later window, or both windows begin on one line. -/
def Entered (first later : Settings) (t : Tia) : Prop :=
  first.yStart = later.yStart ∨ t.beam.HasPassed 0 0

/-- Two chips when the beam reaches the first pixel of the second one's window. -/
def MeetAtWindow (agree : Tia → Tia → Prop) (s t : Tia) : Prop :=
  agree (s.catchUp (t.beam.pixelClock 0 0)) (t.catchUp (t.beam.pixelClock 0 0))

def Alike (kept : Kept) (s t : Tia) : Prop :=
  s.view kept = t.view kept

theorem MeetAtWindow.store {kept : Kept} {s t : Tia} (h : MeetAtWindow (Alike kept) s t)
    (hs : s.beam.lineLeft ≤ lineClocks) (ht : t.beam.lineLeft ≤ lineClocks) (which : Which)
    (cycles : Nat) (value : UInt8) :
    MeetAtWindow (Alike kept) (s.store which.resp cycles value)
      (t.store which.resp cycles value) := by
  have hview := (steady_store which.resp cycles value).view_eq h
  unfold MeetAtWindow
  rw [store_catchUp hs, store_catchUp ht]
  exact hview

theorem MeetAtWindow.catchUp {first later : Settings} {star : Bool} {agree : Tia → Tia → Prop}
    {s t : Tia} (h : MeetAtWindow agree s t) (hside : SideBySide first later star s t)
    {clock : Int} (hclock : clock ≤ t.beam.pixelClock 0 0) :
    MeetAtWindow agree (s.catchUp clock) (t.catchUp clock) := by
  unfold MeetAtWindow
  rw [hside.inLater.pixelClock_catchUp, catchUp_catchUp hside.inFirst.inStep.lineLeft_le,
    catchUp_catchUp hside.inLater.inStep.lineLeft_le, Int.max_eq_right hclock]
  exact h

/-- Two chips side by side that are in stride from the later window on. -/
structure Cropped (first later : Settings) (star : Bool) (kept : Kept) (s t : Tia) : Prop
    extends SideBySide first later star s t where
  inStride : Entered first later t → s.beam.drawnTo = t.beam.drawnTo → InStride kept s t

namespace Cropped

variable {first later : Settings} {star : Bool} {kept : Kept} {s t : Tia}
  (h : Cropped first later star kept s t) (hle : first.yStart ≤ later.yStart)
  (hstar : star → t.objects.starField.armed = false)

include h

theorem map {change : Tia → Tia} (hsteady : Steady change) (hs : (change s).screen = s.screen)
    (ht : (change t).screen = t.screen) :
    Cropped first later star kept (change s) (change t) := by
  have hbeam : (change s).beam = s.beam := congrArg Screen.beam hs
  have hbeam' : (change t).beam = t.beam := congrArg Screen.beam ht
  refine ⟨h.toSideBySide.map hsteady hs ht, ?_⟩
  intro hentered hnow
  rw [hbeam, hbeam'] at hnow
  rw [Entered, hbeam'] at hentered
  exact (h.inStride hentered hnow).map hsteady hs ht

theorem rebase (cycles : Nat) :
    Cropped first later star kept (s.rebase cycles) (t.rebase cycles) := by
  have hsteady := steady_rebase cycles
  obtain ⟨clock, hs, ht⟩ := h.reach
  refine ⟨⟨h.inFirst.apply (.rebase cycles), h.inLater.apply (.rebase cycles),
    ⟨clock - clockOf cycles, ?_, ?_⟩, hsteady.view_eq h.view⟩, fun hentered hthen ↦ ?_⟩
  · simp only [Tia.rebase, Beam.rebase, Beam.reach] at *
    omega
  · simp only [Tia.rebase, Beam.rebase, Beam.reach] at *
    omega
  · have hbefore : Entered first later t := hentered.imp_right (hasPassed_rebase _ _ _ _).mp
    have hnow : s.beam.drawnTo = t.beam.drawnTo := by
      simp only [Tia.rebase, Beam.rebase] at hthen
      omega
    obtain ⟨hleft, hturned, hview⟩ := h.inStride hbefore hnow
    have hswept : (t.rebase cycles).beam.swept = t.beam.swept := by
      simp only [Tia.rebase, Beam.rebase, Beam.swept]
      omega
    refine ⟨hleft, ?_, ?_⟩
    · rw [hswept]
      exact hturned
    · rw [hswept]
      exact hsteady.view_eq hview

include hle

theorem inStride_of_entered (hentered : Entered first later t) {clock : Int}
    (hthen : (s.catchUp clock).beam.drawnTo = (t.catchUp clock).beam.drawnTo) :
    InStride kept (s.catchUp clock) (t.catchUp clock) := by
  have hinside : s.beam.displayStart = t.beam.displayStart ∨
      t.beam.displayStart < t.beam.drawnTo := by
    refine hentered.imp (fun heq ↦ ?_) fun hpassed ↦ ?_
    · rw [h.inFirst.displayStart_eq, h.inLater.displayStart_eq, h.frameStart, heq]
    · simp only [Beam.HasPassed, Beam.pixelClock, lineClocks, blankClocks] at hpassed
      omega
  have hnow := h.drawnTo_eq hle hinside hthen
  exact (h.inStride hentered hnow).catchUp h.inFirst h.inLater hnow hthen

include hstar

/-- On its way into the later window the beam stops at the first pixel. -/
theorem inStride_of_meet (hnot : ¬ t.beam.HasPassed 0 0) {clock : Int}
    (hpassed : (t.catchUp clock).beam.HasPassed 0 0) (hmeet : MeetAtWindow (Alike kept) s t)
    (hthen : (s.catchUp clock).beam.drawnTo = (t.catchUp clock).beam.drawnTo) :
    InStride kept (s.catchUp clock) (t.catchUp clock) := by
  have hheight := (h.inLater.catchUp clock).height_pos hpassed
  obtain ⟨hstart, hstop⟩ := h.inLater.pixelClock_mem hheight (by decide : 0 < frameWidth)
  unfold Beam.HasPassed at hnot hpassed
  rw [h.inLater.pixelClock_catchUp] at hpassed
  unfold MeetAtWindow at hmeet
  generalize hpixel : t.beam.pixelClock 0 0 = pixel at *
  obtain ⟨hclock, hstop'⟩ : pixel < clock ∧ pixel < s.beam.displayStop := by
    have hdrawn := h.inFirst.drawnTo_catchUp clock
    have hdrawn' := h.inLater.drawnTo_catchUp clock
    have hlast := h.inFirst.drawnTo_le
    omega
  obtain ⟨hs, ht⟩ := h.drawnTo_catchUp hle hstart hstop' hstop (by omega)
  have hsame : (t.catchUp pixel).beam.pixelClock 0 0 = pixel := by
    rw [h.inLater.pixelClock_catchUp, hpixel]
  have hstride := InStride.of_firstPixel (h.toSideBySide.catchUp hstar pixel)
    (hs.trans hsame.symm) (ht.trans hsame.symm) hmeet
  have hagain (u : Tia) (hu : u.beam.lineLeft ≤ lineClocks) :
      (u.catchUp pixel).catchUp clock = u.catchUp clock := by
    rw [catchUp_catchUp hu, Int.max_eq_right (by omega)]
  rw [← hagain s h.inFirst.inStep.lineLeft_le, ← hagain t h.inLater.inStep.lineLeft_le] at hthen ⊢
  exact hstride.catchUp (h.inFirst.catchUp pixel) (h.inLater.catchUp pixel) (hs.trans ht.symm) hthen

theorem catchUp {clock : Int}
    (hmeet : first.yStart < later.yStart → ¬ t.beam.HasPassed 0 0 →
      (t.catchUp clock).beam.HasPassed 0 0 → MeetAtWindow (Alike kept) s t) :
    Cropped first later star kept (s.catchUp clock) (t.catchUp clock) := by
  refine ⟨h.toSideBySide.catchUp hstar clock, fun hentered hthen ↦ ?_⟩
  by_cases hbefore : Entered first later t
  · exact h.inStride_of_entered hle hbefore hthen
  · obtain ⟨hne, hnot⟩ := not_or.mp hbefore
    have hlt : first.yStart < later.yStart := UInt16.lt_of_le_of_ne hle hne
    have hpassed : (t.catchUp clock).beam.HasPassed 0 0 := hentered.resolve_left hne
    exact h.inStride_of_meet hle hstar hnot hpassed (hmeet hlt hnot hpassed) hthen

/-- The strobe of a player looks at its position and its size, which every view tells. -/
theorem strobePlayer (which : Which) (clock : Int)
    (hmeet : first.yStart < later.yStart → ¬ t.beam.HasPassed 0 0 →
      (t.strobePlayer which clock).beam.HasPassed 0 0 → MeetAtWindow (Alike kept) s t) :
    Cropped first later star kept (s.strobePlayer which clock) (t.strobePlayer which clock) := by
  have hplace (position : UInt8) (skipFirst : Bool) :
      Steady (·.mapObjects (·.placePlayer which position skipFirst)) :=
    (Objects.steady_placePlayer which position skipFirst).mapObjects
  have hlineClock : s.beam.lineClock clock = t.beam.lineClock clock := by
    rw [Beam.lineClock, Beam.lineClock, h.frameStart]
  have hmode : s.objects.sizeMode which = t.objects.sizeMode which :=
    congrArg (·.objects.sizeMode which) h.view
  have hposition : (s.objects.players.get which).position =
      (t.objects.players.get which).position := by
    cases which
    · exact congrArg (·.objects.players.zero.position) h.view
    · exact congrArg (·.objects.players.one.position) h.view
  simp only [Tia.strobePlayer, hmode, hposition, hlineClock] at hmeet ⊢
  generalize strobeColumn (t.beam.lineClock clock) 5 3 = position at hmeet ⊢
  rcases htiming : StrobeTiming.classify (t.objects.sizeMode which)
      (t.objects.players.get which).position position with _ | _ | _
  · exact h.map (hplace position false) rfl rfl
  · exact h.map (hplace position true) rfl rfl
  · simp only [htiming] at hmeet
    exact (h.catchUp hle hstar hmeet).map (hplace position true) rfl rfl

/-- The beam catches up before the strobe of a player, and perhaps once more for it. -/
theorem strobe (which : Which) (cycles : Nat) (afterRead : Bool) (value : UInt8)
    (hmeet : first.yStart < later.yStart → ¬ t.beam.HasPassed 0 0 →
      ((t.catchUp (clockOf cycles)).takeEffect which.resp cycles afterRead value).1.beam.HasPassed
        0 0 → MeetAtWindow (Alike kept) s t) :
    Cropped first later star kept
      ((s.catchUp (clockOf cycles)).takeEffect which.resp cycles afterRead value).1
      ((t.catchUp (clockOf cycles)).takeEffect which.resp cycles afterRead value).1 := by
  simp only [takeEffect_resp] at hmeet ⊢
  have hcaught : InFrame later (t.catchUp (clockOf cycles)) := h.inLater.catchUp _
  have hstored : InFrame later ((t.catchUp (clockOf cycles)).store which.resp cycles value) :=
    hcaught.of_screen rfl
  have hfirst : Cropped first later star kept (s.catchUp (clockOf cycles))
      (t.catchUp (clockOf cycles)) := by
    refine h.catchUp hle hstar fun hlt hnot hpassed ↦ hmeet hlt hnot ?_
    exact hstored.hasPassed_strobePlayer hpassed which _
  have hsecond := hfirst.map (steady_store which.resp cycles value) rfl rfl
  have hstar' : star → (t.catchUp (clockOf cycles)).objects.starField.armed = false := by
    rwa [armed_catchUp h.inLater.inStep.lineLeft_le]
  refine hsecond.strobePlayer hle hstar' which (clockOf cycles) fun hlt hnot hpassed ↦ ?_
  have hbefore : ¬ t.beam.HasPassed 0 0 := fun hpassed ↦
    hnot (h.inLater.hasPassed_catchUp hpassed _)
  have hclock : clockOf cycles ≤ t.beam.pixelClock 0 0 := by
    have hheight := (hstored.strobePlayer which (clockOf cycles)).height_pos hpassed
    obtain ⟨-, hstop⟩ := h.inLater.pixelClock_mem hheight (by decide : 0 < frameWidth)
    have hdrawn := h.inLater.drawnTo_catchUp (clockOf cycles)
    have hpixel := h.inLater.pixelClock_catchUp (clockOf cycles) 0 0
    have hearly : ¬ (t.catchUp (clockOf cycles)).beam.pixelClock 0 0 <
        (t.catchUp (clockOf cycles)).beam.drawnTo := hnot
    omega
  exact ((hmeet hlt hbefore hpassed).catchUp h.toSideBySide hclock).store
    hfirst.inFirst.inStep.lineLeft_le hfirst.inLater.inStep.lineLeft_le which cycles value

/-- Two chips stay cropped when the same is done to both. -/
theorem apply (step : FrameStep)
    (hmeet : first.yStart < later.yStart → ¬ t.beam.HasPassed 0 0 →
      (step.apply t).beam.HasPassed 0 0 → MeetAtWindow (Alike kept) s t) :
    Cropped first later star kept (step.apply s) (step.apply t) := by
  cases step with
  | rebase cycles => exact h.rebase cycles
  | access request =>
    cases request with
    | read cycles dataBus ports address => exact h.catchUp hle hstar hmeet
    | write cycles afterRead address value =>
      rcases hregister : Register.ofAddress? address.toUInt8 with _ | register
      · simp only [FrameStep.apply, perform, write_of_none _ hregister] at hmeet ⊢
        exact (h.catchUp hle hstar hmeet).map (steady_cutFrame cycles) rfl rfl
      · have hcycle : s.beam.lineCycle (clockOf cycles) = t.beam.lineCycle (clockOf cycles) := by
          rw [Beam.lineCycle, Beam.lineCycle, Beam.lineClock, Beam.lineClock, h.frameStart]
        simp only [FrameStep.apply, perform, write_of_register _ hregister, hcycle] at hmeet ⊢
        by_cases hstrobe : ∃ which : Which, register = which.resp
        · obtain ⟨which, rfl⟩ := hstrobe
          have hnow : clockOf cycles + which.resp.delayOn (t.beam.lineCycle (clockOf cycles)) =
              clockOf cycles := by
            cases which <;> exact Int.add_zero _
          rw [hnow] at hmeet ⊢
          exact h.strobe hle hstar which cycles afterRead value hmeet
        · have hother : ∀ which : Which, register ≠ which.resp := not_exists.mp hstrobe
          refine (h.catchUp hle hstar fun hlt hnot hpassed ↦ hmeet hlt hnot ?_).map
            (steady_takeEffect hother cycles afterRead value)
            (takeEffect_screen _ hother _ _ _) (takeEffect_screen _ hother _ _ _)
          rwa [takeEffect_beam _ hother]

omit hstar in
/-- Two runs stay cropped, if the chips agree on `kept` in the step that enters the later window. -/
theorem play (steps : List FrameStep) {count : Nat} (hcount : count ≤ steps.length)
    (hunarmed : star → ∀ earlier < count,
      (t.play (steps.take earlier)).objects.starField.armed = false)
    (hmeet : first.yStart < later.yStart → ∀ earlier < count, PassesAt t steps 0 0 earlier →
      SideBySide first later star (s.play (steps.take earlier)) (t.play (steps.take earlier)) →
        MeetAtWindow (Alike kept) (s.play (steps.take earlier)) (t.play (steps.take earlier))) :
    Cropped first later star kept (s.play (steps.take count)) (t.play (steps.take count)) := by
  induction count with
  | zero => exact h
  | succ count ih =>
    have hbefore := ih (by omega) (fun hkept earlier hlt ↦ hunarmed hkept earlier (by omega))
      fun hlt earlier hearlier ↦ hmeet hlt earlier (by omega)
    have hnext := play_take_succ t hcount
    rw [play_take_succ s hcount, hnext]
    refine hbefore.apply hle (fun hkept ↦ hunarmed hkept count (by omega)) _
      fun hlt hnot hpassed ↦ ?_
    exact hmeet hlt count (by omega) ⟨hcount, hnot, hnext ▸ hpassed⟩ hbefore.toSideBySide

/-- On a scanline that both show the chips know the same when the beams get to a column. -/
theorem view_catchUp (hfull : kept.star) {line column : Nat} (hfirst : first.Shows line)
    (hlater : later.Shows line) (hcolumn : column < frameWidth)
    (hline : line = later.yStart.toNat → kept = .all) {clock : Int}
    (hclock : t.beam.pixelClock (line - later.yStart.toNat) column = clock)
    (hnot : t.beam.drawnTo ≤ clock)
    (hmeet : first.yStart < later.yStart → ¬ t.beam.HasPassed 0 0 → MeetAtWindow (Alike kept) s t) :
    (s.catchUp clock).view .all = (t.catchUp clock).view .all := by
  obtain ⟨hstart, hstop⟩ :=
    h.inLater.pixelClock_mem (Nat.sub_lt_left_of_lt_add hlater.1 hlater.2) hcolumn
  obtain ⟨-, hstop'⟩ :=
    h.inFirst.pixelClock_mem (Nat.sub_lt_left_of_lt_add hfirst.1 hfirst.2) hcolumn
  rw [h.pixelClock_eq hfirst hlater] at hstop'
  rw [hclock] at hstart hstop hstop'
  obtain ⟨hs, ht⟩ := h.drawnTo_catchUp hle hstart hstop' hstop hnot
  have hfrom := hlater.1
  simp only [Beam.pixelClock, lineClocks, blankClocks] at hclock
  by_cases hpixel : first.yStart < later.yStart ∧ clock = t.beam.pixelClock 0 0
  · obtain ⟨hlt, hpixel⟩ := hpixel
    have hall : kept = .all := by
      apply hline
      simp only [Beam.pixelClock, lineClocks, blankClocks] at hpixel
      omega
    have hmet := hmeet hlt (Int.not_lt.mpr (hpixel ▸ hnot))
    rw [MeetAtWindow, ← hpixel, hall] at hmet
    exact hmet
  · have hcrop : Cropped first later star kept (s.catchUp clock) (t.catchUp clock) :=
      h.catchUp hle hstar fun hlt hnot _ ↦ hmeet hlt hnot
    have hentered : Entered first later (t.catchUp clock) := by
      refine or_iff_not_imp_left.mpr fun hne ↦ ?_
      have hother : clock ≠ t.beam.pixelClock 0 0 := fun heq ↦
        hpixel ⟨UInt16.lt_of_le_of_ne hle hne, heq⟩
      rw [Beam.HasPassed, h.inLater.pixelClock_catchUp, ht]
      simp only [Beam.pixelClock, lineClocks, blankClocks] at hother ⊢
      omega
    have hswept : (t.catchUp clock).beam.swept =
        228 * (line - later.yStart.toNat : Nat) + 68 + column := by
      obtain ⟨-, hstart, -⟩ := Beam.stamps_eq_iff.mp (h.inLater.stamps_catchUp clock)
      rw [Beam.swept, ht, hstart]
      omega
    have hpast : kept = .all ∨ (lineClocks : Int) < (t.catchUp clock).beam.swept := by
      by_cases hsame : line = later.yStart.toNat
      · exact .inl (hline hsame)
      · right
        simp only [hswept, lineClocks]
        omega
    exact view_mono (kept.all_within_aged hfull hpast)
      (hcrop.inStride hentered (hs.trans ht.symm)).view

end Cropped

/-! ## Pixels -/

theorem turnLine_of_pixel {s : Tia} (h : s.beam.InStep) {row column : Nat}
    (hcolumn : column < frameWidth) (hnow : s.beam.drawnTo = s.beam.pixelClock row column) :
    s.turnLine = s :=
  turnLine_of_pos (h.lineLeft_pos hcolumn hnow)

theorem Beam.HasPassed.first {beam : Beam} {row column : Nat} (h : beam.HasPassed row column) :
    beam.HasPassed 0 0 := by
  simp only [Beam.HasPassed, Beam.pixelClock, lineClocks] at *
  omega

namespace Cropped

variable {first later : Settings} {kept : Kept} {s t : Tia}
  (h : Cropped first later false kept s t) (hle : first.yStart ≤ later.yStart)

include h hle

/-- The step of a run that passes a column gives it the same colour in both chips. -/
theorem shade_eq (hfull : kept.star) {line column : Nat} (hfirst : first.Shows line)
    (hlater : later.Shows line) (hcolumn : column < frameWidth)
    (hline : line = later.yStart.toNat → kept = .all)
    (hnot : ¬ t.beam.HasPassed (line - later.yStart.toNat) column)
    (hmeet : first.yStart < later.yStart → ¬ t.beam.HasPassed 0 0 → MeetAtWindow (Alike kept) s t) :
    (s.catchUp (s.beam.pixelClock (line - first.yStart.toNat) column)).turnLine.shade column =
      (t.catchUp (t.beam.pixelClock (line - later.yStart.toNat) column)).turnLine.shade column := by
  have hsame := h.pixelClock_eq hfirst hlater column
  obtain ⟨hstart, hstop⟩ :=
    h.inLater.pixelClock_mem (Nat.sub_lt_left_of_lt_add hlater.1 hlater.2) hcolumn
  obtain ⟨-, hstop'⟩ :=
    h.inFirst.pixelClock_mem (Nat.sub_lt_left_of_lt_add hfirst.1 hfirst.2) hcolumn
  rw [hsame] at hstop'
  obtain ⟨hs, ht⟩ := h.drawnTo_catchUp hle hstart hstop' hstop (Int.not_lt.mp hnot)
  have hview := h.view_catchUp hle nofun hfull hfirst hlater hcolumn hline rfl
    (Int.not_lt.mp hnot) hmeet
  have hline := turnLine_of_pixel (h.inFirst.catchUp _).inStep hcolumn
    (hs.trans (hsame.symm.trans (h.inFirst.pixelClock_catchUp _ _ _).symm))
  have hline' := turnLine_of_pixel (h.inLater.catchUp _).inStep hcolumn
    (ht.trans (h.inLater.pixelClock_catchUp _ _ _).symm)
  rw [hsame, hline, hline', ← shade_view, hview, shade_view]

/-- On a scanline that both show two runs of the same steps draw the same pixels. -/
theorem play_pixel (hfull : kept.star) {line column : Nat} (hfirst : first.Shows line)
    (hlater : later.Shows line) (hcolumn : column < frameWidth)
    (hline : line = later.yStart.toNat → kept = .all)
    (hfrom : ¬ t.beam.HasPassed (line - later.yStart.toNat) column)
    (hfresh : s.video.current[pixelIndex (line - first.yStart.toNat) column]? =
      t.video.current[pixelIndex (line - later.yStart.toNat) column]?)
    (steps : List FrameStep)
    (hmeet : first.yStart < later.yStart → ∀ count, PassesAt t steps 0 0 count →
      SideBySide first later false (s.play (steps.take count)) (t.play (steps.take count)) →
        MeetAtWindow (Alike kept) (s.play (steps.take count)) (t.play (steps.take count))) :
    (s.play steps).video.current[pixelIndex (line - first.yStart.toNat) column]? =
      (t.play steps).video.current[pixelIndex (line - later.yStart.toNat) column]? := by
  have hcropped {count : Nat} (hcount : count ≤ steps.length) :
      Cropped first later false kept (s.play (steps.take count)) (t.play (steps.take count)) :=
    h.play hle steps hcount nofun fun hlt earlier _ ↦ hmeet hlt earlier
  have hpassed {count : Nat} (hcount : count ≤ steps.length) :=
    (hcropped hcount).hasPassed_iff hfirst hlater hcolumn
  by_cases hend : (t.play steps).beam.HasPassed (line - later.yStart.toNat) column
  · obtain ⟨count, hcount, -⟩ := existsUnique_passesAt h.inLater hcolumn steps hfrom hend
    obtain ⟨hlength, hnot, hthen⟩ := hcount
    have hcount' : PassesAt s steps (line - first.yStart.toNat) column count :=
      ⟨hlength, fun hs ↦ hnot ((hpassed hlength.le).mp hs), (hpassed hlength).mpr hthen⟩
    have hbefore := hcropped hlength.le
    rw [play_of_passesAt h.inFirst hcolumn (Nat.sub_lt_left_of_lt_add hfirst.1 hfirst.2) hcount',
      play_of_passesAt h.inLater hcolumn (Nat.sub_lt_left_of_lt_add hlater.1 hlater.2)
        ⟨hlength, hnot, hthen⟩, hfresh,
      hbefore.shade_eq hle hfull hfirst hlater hcolumn hline hnot fun hlt hearly ↦
        hmeet hlt count ⟨hlength, hearly, hthen.first⟩ hbefore.toSideBySide]
  · have hend' : ¬ (s.play steps).beam.HasPassed (line - first.yStart.toNat) column := by
      have hiff := hpassed (Nat.le_refl steps.length)
      rw [List.take_length] at hiff
      exact fun hs ↦ hend (hiff.mp hs)
    rw [h.inFirst.play_of_not_hasPassed hcolumn steps hend',
      h.inLater.play_of_not_hasPassed hcolumn steps hend, hfresh]

end Cropped

/-- A chip that has been given settings, was reset and begins a frame. -/
def started (s : Tia) (settings : Settings) : Tia :=
  ((s.setSettings settings).reset 0).1.beginFrame 0

/-- The pixel of a scanline in the frame buffer. -/
def linePixel? (s : Tia) (line column : Nat) : Option UInt8 :=
  s.video.current[pixelIndex (line - s.settings.yStart.toNat) column]?

theorem InFrame.linePixel?_eq {settings : Settings} {s : Tia} (h : InFrame settings s)
    (line column : Nat) :
    s.linePixel? line column =
      s.video.current[pixelIndex (line - settings.yStart.toNat) column]? := by
  rw [linePixel?, h.settings_eq]

theorem started_inFrame (s : Tia) (settings : Settings) :
    InFrame settings.clamped (s.started settings) :=
  beginFrame_inFrame ((s.setSettings settings).reset 0).1 0

/-- The same settings with another window. -/
def Settings.withWindow (settings : Settings) (yStart height : UInt16) : Settings :=
  { settings with yStart := yStart, height := height }

theorem started_hasPassed (s : Tia) (settings : Settings) (row column : Nat) :
    ¬ (s.started settings).beam.HasPassed row column := by
  have hstart : (s.started settings).beam.drawnTo = (s.started settings).beam.displayStart := rfl
  simp only [Beam.HasPassed, Beam.pixelClock, hstart, lineClocks, blankClocks]
  omega

theorem started_reach (s : Tia) (settings : Settings) :
    (s.started settings).beam.drawnTo = (s.started settings).beam.reach 0 := by
  have hstart : (s.started settings).beam.drawnTo = (s.started settings).beam.displayStart := rfl
  have hframe : (s.started settings).beam.frameStart = 0 := rfl
  have hwindow := (s.started_inFrame settings).displayStart_eq
  rw [hstart, Beam.reach]
  simp only [lineClocks] at *
  omega

/-- Whatever there was before, after a reset two chips have everything in common but their windows. -/
theorem started_cropped (s t : Tia) (settings : Settings) (yStart height : UInt16) (star : Bool)
    (kept : Kept) :
    Cropped settings.clamped (settings.withWindow yStart height).clamped star kept
      (s.started settings) (t.started (settings.withWindow yStart height)) where
  inFirst := s.started_inFrame _
  inLater := t.started_inFrame _
  reach := ⟨0, s.started_reach _, t.started_reach _⟩
  view := rfl
  inStride := fun _ _ ↦ ⟨rfl, .inr (Int.sub_self _), rfl⟩

theorem Settings.height_clamped_le (settings : Settings) :
    settings.clamped.height.toNat ≤ frameHeightMax := by
  change (if settings.height ≤ UInt16.ofNat frameHeightMax then settings.height
    else UInt16.ofNat frameHeightMax).toNat ≤ frameHeightMax
  split
  · next hle => exact hle
  · decide

/-- Before the beam gets there a pixel is black. -/
theorem started_pixel (s : Tia) {settings : Settings} {row column : Nat}
    (hrow : row < settings.clamped.height.toNat) (hcolumn : column < frameWidth) :
    (s.started settings).video.current[pixelIndex row column]? = some 0 := by
  have hheight := settings.height_clamped_le
  refine getElem?_blankFrame ?_
  simp only [pixelIndex, framePixels, frameWidth, frameHeightMax] at *
  omega

/-- Missile 0 and the star field are the same. -/
def SameMissile0 (s t : Tia) : Prop :=
  s.objects.missiles.zero = t.objects.missiles.zero ∧ s.objects.starField = t.objects.starField

/-- The same motion blank is pending, and the players wait to show the same copies. -/
def SameWaits (s t : Tia) : Prop :=
  s.blankPending = t.blankPending ∧
    ∀ which, (s.objects.players.get which).mask = (t.objects.players.get which).mask

/-- What is not the same of itself is missile 0, a pending blank and what the players wait for. -/
theorem SideBySide.alike {first later : Settings} {kept : Kept} {s t : Tia}
    (h : SideBySide first later false s t) (hstar : kept.star → MeetAtWindow SameMissile0 s t)
    (hwaits : kept.blank ∨ kept.copies → MeetAtWindow SameWaits s t) :
    MeetAtWindow (Alike kept) s t :=
  view_eq_of (h.catchUp nofun _).view (fun hblank ↦ (hwaits (.inl hblank)).1)
    (fun hcopies ↦ (hwaits (.inr hcopies)).2)
    fun hkept ↦ (hstar hkept).imp id (congrArg StarField.phase)

/-- Two runs in the step in which the beam passes the first pixel of the second one's window. -/
def MeetInRun (agree : Tia → Tia → Prop) (s t : Tia) (steps : List FrameStep) : Prop :=
  ∀ count, PassesAt t steps 0 0 count →
    MeetAtWindow agree (s.play (steps.take count)) (t.play (steps.take count))

/-- While the star field is not armed missile 0 stands where it does in every window. -/
theorem meetInRun_sameMissile0 (s t : Tia) (settings : Settings) {yStart : UInt16} (height : UInt16)
    (hle : settings.yStart ≤ yStart) (steps : List FrameStep)
    (hunarmed : ∀ count,
      let reached := (t.started (settings.withWindow yStart height)).play (steps.take count)
      ¬ reached.beam.HasPassed 0 0 → reached.objects.starField.armed = false) :
    MeetInRun SameMissile0 (s.started settings) (t.started (settings.withWindow yStart height))
      steps := by
  intro count hcount
  obtain ⟨hlength, hnot, -⟩ := hcount
  have hstart := t.started_inFrame (settings.withWindow yStart height)
  have hearlier {earlier : Nat} (hle : earlier ≤ count) :
      ((t.started (settings.withWindow yStart height)).play
        (steps.take earlier)).objects.starField.armed = false := by
    refine hunarmed earlier fun hpassed ↦ hnot ?_
    obtain ⟨more, rfl⟩ := Nat.exists_eq_add_of_le hle
    rw [play_take_add]
    exact (hstart.play _).play_hasPassed (by decide) _ hpassed
  have hcropped := (started_cropped s t settings yStart height true .nothing).play hle steps
    hlength.le (fun _ earlier hlt ↦ hearlier hlt.le) fun _ earlier hlt _ hside ↦
      view_mono (.nothing _) (hside.catchUp (fun _ ↦ hearlier hlt.le) _).view
  have hview := (hcropped.toSideBySide.catchUp (fun _ ↦ hearlier (Nat.le_refl count))
    (((t.started (settings.withWindow yStart height)).play (steps.take count)).beam.pixelClock
      0 0)).view
  exact ⟨congrArg (·.objects.missiles.zero) hview, congrArg (·.objects.starField) hview⟩

/-- The display window is a crop but for what lines age.  Two chips are reset with settings that differ only in
their windows, and then the same is done to both.  Every scanline that both show has the same pixels in both
frame buffers, if missile 0 is the same in both when the beam reaches the later window; and so has the first
line of the later window, if the pending blank and the waiting copies are the same there as well. -/
theorem window_crops (s t : Tia) (settings : Settings) {yStart : UInt16} (height : UInt16)
    (hle : settings.yStart ≤ yStart) (steps : List FrameStep)
    (hstar : settings.yStart < yStart → MeetInRun SameMissile0 (s.started settings)
      (t.started (settings.withWindow yStart height)) steps) :
    let above := (s.started settings).play steps
    let below := (t.started (settings.withWindow yStart height)).play steps
    ∀ line column : Nat, above.settings.Shows line → below.settings.Shows line →
      column < frameWidth →
      (line = yStart.toNat → settings.yStart < yStart → MeetInRun SameWaits (s.started settings)
        (t.started (settings.withWindow yStart height)) steps) →
      above.linePixel? line column = below.linePixel? line column := by
  intro above below line column hfirst hlater hcolumn hwaits
  have habove : InFrame settings.clamped above := (s.started_inFrame settings).play steps
  have hbelow : InFrame (settings.withWindow yStart height).clamped below :=
    (t.started_inFrame _).play steps
  rw [habove.settings_eq] at hfirst
  rw [hbelow.settings_eq] at hlater
  rw [habove.linePixel?_eq, hbelow.linePixel?_eq]
  -- Of the first line everything has to be known, of the others only where missile 0 is.
  let first : Bool := line = yStart.toNat
  have hmeet (hlt : settings.yStart < yStart) (count : Nat)
      (hcount : PassesAt (t.started (settings.withWindow yStart height)) steps 0 0 count)
      (hside : SideBySide settings.clamped (settings.withWindow yStart height).clamped false
        ((s.started settings).play (steps.take count))
        ((t.started (settings.withWindow yStart height)).play (steps.take count))) :
      MeetAtWindow (Alike ⟨first, first, true⟩) ((s.started settings).play (steps.take count))
        ((t.started (settings.withWindow yStart height)).play (steps.take count)) :=
    hside.alike (fun _ ↦ hstar hlt count hcount)
      fun hfirst ↦ hwaits (of_decide_eq_true (hfirst.elim id id)) hlt count hcount
  refine (started_cropped s t settings yStart height false ⟨first, first, true⟩).play_pixel hle rfl
    hfirst hlater hcolumn (fun hline ↦ ?_) (t.started_hasPassed _ _ _) ?_ steps hmeet
  · have hfirst : first = true := decide_eq_true hline
    rw [hfirst]
    rfl
  · rw [started_pixel s (Nat.sub_lt_left_of_lt_add hfirst.1 hfirst.2) hcolumn,
      started_pixel t (Nat.sub_lt_left_of_lt_add hlater.1 hlater.2) hcolumn]

/-- A motion blank that is asked for on the first line that both show is the same in both. -/
theorem window_crops_of_motion :
    let steps : List FrameStep :=
      [.access (.write 0 true 0x09 0x1E), .access (.write 156 true 0x2A 0),
        .access (.read 304 0 {} 0x02)]
    let settings : Settings := { yStart := 0, height := 4 }
    let above := (Tia.new {}).started settings
    let below := (Tia.new {}).started (settings.withWindow 2 2)
    settings.yStart ≤ 2 ∧ MeetInRun SameMissile0 above below steps ∧
      MeetInRun SameWaits above below steps ∧
      ∀ line column : Nat, 2 ≤ line ∧ line < 4 → column < frameWidth →
        (above.play steps).linePixel? line column = (below.play steps).linePixel? line column := by
  intro steps settings above below
  have hle : settings.yStart ≤ 2 := by decide
  have hstar : MeetInRun SameMissile0 above below steps := by
    refine meetInRun_sameMissile0 _ _ settings 2 hle steps fun count _ ↦ ?_
    rcases count with _ | _ | _ | count
    · decide +kernel
    · decide +kernel
    · decide +kernel
    · rw [List.take_of_length_le (by simp [steps])]
      decide +kernel
  have hwaits : MeetInRun SameWaits above below steps := by
    intro count hcount
    rcases count with _ | _ | _ | count
    · exact absurd hcount (by decide +kernel)
    · exact absurd hcount (by decide +kernel)
    · exact ⟨by decide +kernel, fun which ↦ by cases which <;> decide +kernel⟩
    · exact absurd hcount.1 (by simp [steps])
  refine ⟨hle, hstar, hwaits, fun line column hline hcolumn ↦ ?_⟩
  have habove : (above.play steps).settings = settings.clamped :=
    ((started_inFrame _ _).play steps).settings_eq
  have hbelow : (below.play steps).settings = (settings.withWindow 2 2).clamped :=
    ((started_inFrame _ _).play steps).settings_eq
  refine window_crops _ _ settings 2 hle steps (fun _ ↦ hstar) line column ?_ ?_ hcolumn
    fun _ _ ↦ hwaits
  · rw [habove]
    exact ⟨Nat.zero_le line, hline.2⟩
  · rw [hbelow]
    exact hline

/-- The later window is more than a crop: a motion blank that was asked for two lines above it, where it
should have darkened the line of its own, darkens the edge of the first line. -/
theorem window_keeps_blank :
    let steps : List FrameStep :=
      [.access (.write 0 true 0x09 0x1E), .access (.write 10 true 0x2A 0),
        .access (.write 304 true 0x09 0x1E)]
    let above := ((Tia.new {}).started { yStart := 0, height := 4 }).play steps
    let below := ((Tia.new {}).started { yStart := 2, height := 2 }).play steps
    above.settings.Shows 2 ∧ below.settings.Shows 2 ∧
      above.beam.HasPassed 2 159 ∧ below.beam.HasPassed 0 159 ∧
      above.linePixel? 2 0 = some 0x1E ∧ below.linePixel? 2 0 = some 0 := by
  intro steps above below
  have habove := started_inFrame (Tia.new {}) { yStart := 0, height := 4 }
  have hbelow := started_inFrame (Tia.new {}) { yStart := 2, height := 2 }
  refine ⟨by decide +kernel, by decide +kernel, by decide +kernel, by decide +kernel, ?_, ?_⟩
  · rw [(habove.play steps).linePixel?_eq]
    refine (play_of_passesAt habove (by decide : 0 < frameWidth) (by decide : 2 < (4 : UInt16).toNat)
      (by decide +kernel : PassesAt _ steps 2 0 2)).trans ?_
    rw [started_pixel (Tia.new {}) (by decide) (by decide)]
    exact congrArg some (by decide +kernel)
  · rw [(hbelow.play steps).linePixel?_eq]
    refine (play_of_passesAt hbelow (by decide : 0 < frameWidth) (by decide : 0 < (2 : UInt16).toNat)
      (by decide +kernel : PassesAt _ steps 0 0 2)).trans ?_
    rw [started_pixel (Tia.new {}) (by decide) (by decide)]
    exact congrArg some (by decide +kernel)

end Vcs.Tia
