import Vcs.Proofs.Tia.CatchUp
import Vcs.Proofs.Tia.Frame

/-!
# What Lines Age

Three things about the objects change without an access, as the beam moves over the lines: a pending motion
blank is over behind the eighth column of a line, the copies of a player that wait for the next line are due
at the end of one, and while the star field runs it moves missile 0 at the end of every line.  Everything else
that decides what a column shows is changed by accesses alone.

A view of a chip is what is left of it when the picture is taken away, and of these three things those that
are not kept.  No access makes more of a view than the view itself tells, and the beam leaves alone a view in
which none of the three is kept.
-/

namespace Vcs.Tia

/-- Which of the things that lines age are kept in a view. -/
structure Kept where
  /-- The motion blank that is pending. -/
  blank : Bool
  /-- Which copies the players wait to show. -/
  copies : Bool
  /-- Missile 0 and the star field that moves it. -/
  star : Bool
  deriving DecidableEq

namespace Kept

def all : Kept := ⟨true, true, true⟩

/-- What the beam leaves alone, missile 0 if the star field does not move it. -/
def standing (star : Bool) : Kept := ⟨false, false, star⟩

abbrev nothing : Kept := standing false

/-- Everything that is kept here is kept there. -/
def Within (less more : Kept) : Prop :=
  (less.blank → more.blank) ∧ (less.copies → more.copies) ∧ (less.star → more.star)

theorem Within.refl (kept : Kept) : kept.Within kept :=
  ⟨id, id, id⟩

theorem Within.nothing (kept : Kept) : Kept.nothing.Within kept :=
  ⟨nofun, nofun, nofun⟩

end Kept

def Player.view (copies : Bool) (player : Player) : Player :=
  { player with mask := if copies then player.mask else {} }

namespace Objects

def view (kept : Kept) (o : Objects) : Objects :=
  { o with
    players := ⟨o.players.zero.view kept.copies, o.players.one.view kept.copies⟩
    missiles := { o.missiles with zero := if kept.star then o.missiles.zero else {} }
    starField := { o.starField with phase := if kept.star then o.starField.phase else 0 } }

theorem view_view {less more : Kept} (h : less.Within more) (o : Objects) :
    (o.view more).view less = o.view less := by
  obtain ⟨-, hcopies, hstar⟩ := h
  rcases less with ⟨_, _ | _, _ | _⟩ <;> simp_all [view, Player.view]

@[simp]
theorem view_self (kept : Kept) (o : Objects) : (o.view kept).view kept = o.view kept :=
  view_view (.refl kept) o

end Objects

/-- What is left of a chip without its picture and without what is not kept. -/
def view (kept : Kept) (s : Tia) : Tia where
  settings := { s.settings with yStart := 0, height := 0 }
  beam := { frameStart := s.beam.frameStart }
  objects := s.objects.view kept
  blankPending := kept.blank && s.blankPending
  lastMotion := s.lastMotion
  frame := { s.frame with completed := 0 }

theorem view_view {less more : Kept} (h : less.Within more) (s : Tia) :
    (s.view more).view less = s.view less := by
  have hobjects := Objects.view_view h s.objects
  obtain ⟨hblank, -, -⟩ := h
  rcases less with ⟨_ | _, _, _⟩ <;> simp_all [view]

theorem view_mono {less more : Kept} (h : less.Within more) {s t : Tia}
    (hview : s.view more = t.view more) : s.view less = t.view less := by
  rw [← view_view h s, hview, view_view h t]

/-- A view is the one that keeps nothing, and what is kept. -/
theorem view_eq_of {kept : Kept} {s t : Tia} (h : s.view .nothing = t.view .nothing)
    (hblank : kept.blank → s.blankPending = t.blankPending)
    (hcopies : kept.copies → ∀ which,
      (s.objects.players.get which).mask = (t.objects.players.get which).mask)
    (hstar : kept.star → s.objects.missiles.zero = t.objects.missiles.zero ∧
      s.objects.starField.phase = t.objects.starField.phase) :
    s.view kept = t.view kept := by
  have hzero := fun hkept ↦ hcopies hkept .zero
  have hone := fun hkept ↦ hcopies hkept .one
  simp only [Pair.get] at hzero hone
  rcases kept with ⟨_ | _, _ | _, _ | _⟩ <;>
    simp_all [view, Objects.view, Player.view, Kept.standing]

/-- The view that a change leaves is told by the view that it finds. -/
def Steady (change : Tia → Tia) : Prop :=
  ∀ kept s, (change (s.view kept)).view kept = (change s).view kept

theorem Steady.view_eq {change : Tia → Tia} (h : Steady change) {kept : Kept} {s t : Tia}
    (hview : s.view kept = t.view kept) : (change s).view kept = (change t).view kept := by
  rw [← h kept s, hview, h kept t]

theorem Steady.comp {second first : Tia → Tia} (hsecond : Steady second) (hfirst : Steady first) :
    Steady fun s ↦ second (first s) :=
  fun kept s ↦ hsecond.view_eq (hfirst kept s)

theorem steady_id : Steady fun s ↦ s :=
  fun kept s ↦ view_view (.refl kept) s

namespace Objects

/-- Likewise for a change of the objects. -/
def Steady (change : Objects → Objects) : Prop :=
  ∀ kept o, (change (o.view kept)).view kept = (change o).view kept

theorem Steady.comp {second first : Objects → Objects} (hsecond : Steady second)
    (hfirst : Steady first) : Steady fun o ↦ second (first o) := by
  intro kept o
  calc
    (second (first (o.view kept))).view kept =
        (second ((first (o.view kept)).view kept)).view kept := (hsecond kept _).symm
    _ = (second ((first o).view kept)).view kept := by rw [hfirst kept o]
    _ = (second (first o)).view kept := hsecond kept _

end Objects

/-- A change of the objects that is itself told by the view. -/
theorem steady_mapObjects {change : Tia → Objects → Objects}
    (hsame : ∀ kept s, change (s.view kept) = change s) (h : ∀ s, Objects.Steady (change s)) :
    Steady fun s ↦ s.mapObjects (change s) := by
  intro kept s
  have hobjects : (change s (s.objects.view kept)).view kept = (change s s.objects).view kept :=
    h s kept s.objects
  have hblank : (kept.blank && (kept.blank && s.blankPending)) = (kept.blank && s.blankPending) := by
    rw [← Bool.and_assoc, Bool.and_self]
  simp only [mapObjects, hsame kept s]
  simp only [view, hobjects, hblank]

theorem Objects.Steady.mapObjects {change : Objects → Objects} (h : Objects.Steady change) :
    Vcs.Tia.Steady (·.mapObjects change) :=
  steady_mapObjects (fun _ _ ↦ rfl) fun _ ↦ h

namespace Objects

theorem steady_refreshPlayerMask (which : Which) : Steady (·.refreshPlayerMask which) := by
  rintro ⟨_, _ | _, _ | _⟩ o <;> cases which <;> rfl

theorem steady_refreshMissileMask (which : Which) : Steady (·.refreshMissileMask which) := by
  rintro ⟨_, _ | _, _ | _⟩ o <;> cases which <;> rfl

theorem steady_refreshBallMask : Steady (·.refreshBallMask) := by
  rintro ⟨_, _ | _, _ | _⟩ o <;> rfl

theorem steady_refreshPlayfield : Steady (·.refreshPlayfield) := by
  rintro ⟨_, _ | _, _ | _⟩ o <;> rfl

theorem steady_refreshGraphic (which : Which) : Steady (·.refreshGraphic which) := by
  rintro ⟨_, _ | _, _ | _⟩ o <;> cases which <;> rfl

theorem steady_refreshMissileEnable (which : Which) : Steady (·.refreshMissileEnable which) := by
  rintro ⟨_, _ | _, _ | _⟩ o <;> cases which <;> rfl

theorem steady_refreshBallEnable : Steady (·.refreshBallEnable) := by
  rintro ⟨_, _ | _, _ | _⟩ o <;> rfl

theorem steady_placePlayer (which : Which) (position : UInt8) (skipFirst : Bool) :
    Steady (·.placePlayer which position skipFirst) := by
  rintro ⟨_, _ | _, _ | _⟩ o <;> cases which <;> rfl

theorem steady_placeMissile (which : Which) (position : UInt8) :
    Steady (·.placeMissile which position) := by
  rintro ⟨_, _ | _, _ | _⟩ o <;> cases which <;> rfl

theorem steady_placeBall (position : UInt8) : Steady (·.placeBall position) := by
  rintro ⟨_, _ | _, _ | _⟩ o <;> rfl

/-- Letting go of a missile puts it at its player. -/
theorem steady_releaseMissile (which : Which) : Steady fun o ↦
    o.placeMissile which (UInt8.ofNat
      (((o.players.get which).position.toNat + releaseOffset (o.sizeMode which)) % columns)) := by
  rintro ⟨_, _ | _, _ | _⟩ o <;> cases which <;> rfl

theorem steady_registers (change : RegisterFile → RegisterFile) :
    Steady fun o ↦ { o with registers := change o.registers } := by
  rintro ⟨_, _ | _, _ | _⟩ o <;> rfl

theorem steady_modes (modes : ObjectSet) : Steady fun o ↦ { o with modes := modes } := by
  rintro ⟨_, _ | _, _ | _⟩ o <;> rfl

theorem steady_graphic (which : Which) (change : UInt8 → UInt8) :
    Steady fun o ↦ { o with
      players := o.players.modify which fun player ↦
        { player with graphic := change player.graphic } } := by
  rintro ⟨_, _ | _, _ | _⟩ o <;> cases which <;> rfl

theorem steady_delayed0 : Steady fun o ↦ { o with
    players := { o.players with zero := { o.players.zero with delayed := o.registers.get .grp0 } }
    ball := { o.ball with delayed := o.registers.test .enabl 0x02 } } := by
  rintro ⟨_, _ | _, _ | _⟩ o <;> rfl

theorem steady_delayed1 : Steady fun o ↦ { o with
    players :=
      { o.players with one := { o.players.one with delayed := o.registers.get .grp1 } } } := by
  rintro ⟨_, _ | _, _ | _⟩ o <;> rfl

theorem steady_armStarField :
    Steady fun o ↦ { o with starField := { armed := true, phase := 0 } } := by
  rintro ⟨_, _ | _, _ | _⟩ o <;> rfl

theorem steady_move (cycle : Nat) : Steady (·.move cycle) := by
  rintro ⟨_, _ | _, _ | _⟩ o <;>
    simp [view, Player.view, move, placePlayer, placeMissile, placeBall, refreshMissileMask,
      refreshBallMask, Pair.modify, movedBy, sizeMode, missileSize]

end Objects

theorem steady_writeColor (register : Register) (value : UInt8) :
    Steady (·.writeColor register value) :=
  steady_mapObjects (fun _ _ ↦ rfl) fun _ ↦ Objects.steady_registers (·.set register _)

theorem steady_writeReflection (which : Which) (previous value : UInt8) :
    Steady (·.writeReflection which previous value) := by
  by_cases hchanged : (previous ^^^ value) &&& 0x08 != 0
  · simp only [writeReflection, hchanged, if_true]
    exact (Objects.steady_graphic which reflect).mapObjects
  · simp only [writeReflection, hchanged]
    exact steady_id

theorem steady_writeMissileLock (which : Which) (previous value : UInt8) :
    Steady (·.writeMissileLock which previous value) := by
  have henable := Objects.steady_refreshMissileEnable which
  by_cases hreleased : (previous &&& 0x02 != 0 && value &&& 0x02 == 0) = true
  · simp only [writeMissileLock, hreleased, if_true]
    exact (henable.comp (Objects.steady_releaseMissile which)).mapObjects
  · simp only [writeMissileLock, hreleased]
    exact henable.mapObjects

theorem steady_writeGraphic0 : Steady (·.writeGraphic0) :=
  (((Objects.steady_refreshGraphic .one).comp (Objects.steady_refreshGraphic .zero)).comp
    Objects.steady_delayed1).mapObjects

theorem steady_writeGraphic1 : Steady (·.writeGraphic1) :=
  ((Objects.steady_refreshBallEnable.comp
    ((Objects.steady_refreshGraphic .one).comp (Objects.steady_refreshGraphic .zero))).comp
      Objects.steady_delayed0).mapObjects

theorem steady_strobeMissile (which : Which) (clock : Int) : Steady (·.strobeMissile which clock) :=
  steady_mapObjects (fun _ _ ↦ rfl) fun _ ↦ Objects.steady_placeMissile which _

theorem steady_strobeBall (clock : Int) : Steady (·.strobeBall clock) :=
  steady_mapObjects (fun _ _ ↦ rfl) fun _ ↦ Objects.steady_placeBall _

theorem steady_strobeMotion (clock : Int) : Steady (·.strobeMotion clock) := by
  intro kept s
  have hobjects : ((s.objects.view kept).move (s.beam.lineCycle clock)).view kept =
      (s.objects.move (s.beam.lineCycle clock)).view kept :=
    Objects.steady_move (s.beam.lineCycle clock) kept s.objects
  have hblank (pending asked : Bool) :
      (kept.blank && (kept.blank && pending || asked)) = (kept.blank && (pending || asked)) := by
    cases kept.blank <;> rfl
  exact congrArg₂ (fun objects blank ↦ ({ (s.strobeMotion clock).view kept with
    objects := objects, blankPending := blank } : Tia)) hobjects (hblank _ _)

theorem steady_clearMotion : Steady (·.clearMotion) :=
  (Objects.steady_registers fun file ↦ [Register.hmp0, .hmp1, .hmm0, .hmm1, .hmbl].foldl
    (fun file register ↦ file.set register 0) file).mapObjects

theorem steady_writeSync (previous value : UInt8) (clock : Int) :
    Steady fun s ↦ (s.writeSync previous value clock).2 := by
  intro kept s
  simp only [writeSync, view]
  split_ifs <;> simp

/-- The write that may arm the star field. -/
theorem steady_writeMotion0 (previous value : UInt8) (clock : Int) (cycles : Nat)
    (afterRead : Bool) (response : Response) :
    Steady fun s ↦ (s.actOn .hmm0 previous value clock cycles afterRead response).1 := by
  intro kept s
  have harms : (s.view kept).armsStarField previous value clock =
      s.armsStarField previous value clock := rfl
  by_cases h : s.armsStarField previous value clock
  · simp only [actOn, harms, h, if_true]
    exact Objects.steady_armStarField.mapObjects kept s
  · simp only [actOn, harms, h]
    exact steady_id kept s

/-- What a register is for looks at nothing that lines age.  The strobe of a player is left out: it lets the
beam move. -/
theorem steady_actOn {register : Register} (h : ∀ which : Which, register ≠ which.resp)
    (previous value : UInt8) (clock : Int) (cycles : Nat) (afterRead : Bool) (response : Response) :
    Steady fun s ↦ (s.actOn register previous value clock cycles afterRead response).1 := by
  cases register with
  | resp0 => exact absurd rfl (h .zero)
  | resp1 => exact absurd rfl (h .one)
  | vsync => exact steady_writeSync previous value clock
  | nusiz0 =>
    exact ((Objects.steady_refreshMissileMask .zero).comp
      (Objects.steady_refreshPlayerMask .zero)).mapObjects
  | nusiz1 =>
    exact ((Objects.steady_refreshMissileMask .one).comp
      (Objects.steady_refreshPlayerMask .one)).mapObjects
  | colup0 => exact steady_writeColor .colup0 value
  | colup1 => exact steady_writeColor .colup1 value
  | colupf => exact steady_writeColor .colupf value
  | colubk => exact steady_writeColor .colubk value
  | ctrlpf => exact (Objects.steady_refreshBallMask.comp (Objects.steady_modes _)).mapObjects
  | refp0 => exact steady_writeReflection .zero previous value
  | refp1 => exact steady_writeReflection .one previous value
  | pf0 | pf1 | pf2 => exact Objects.steady_refreshPlayfield.mapObjects
  | resm0 => exact steady_strobeMissile .zero clock
  | resm1 => exact steady_strobeMissile .one clock
  | resbl => exact steady_strobeBall clock
  | grp0 => exact steady_writeGraphic0
  | grp1 => exact steady_writeGraphic1
  | enam0 => exact (Objects.steady_refreshMissileEnable .zero).mapObjects
  | enam1 => exact (Objects.steady_refreshMissileEnable .one).mapObjects
  | enabl | vdelbl => exact Objects.steady_refreshBallEnable.mapObjects
  | vdelp0 => exact (Objects.steady_refreshGraphic .zero).mapObjects
  | vdelp1 => exact (Objects.steady_refreshGraphic .one).mapObjects
  | hmm0 => exact steady_writeMotion0 previous value clock cycles afterRead response
  | resmp0 => exact steady_writeMissileLock .zero previous value
  | resmp1 => exact steady_writeMissileLock .one previous value
  | hmove => exact steady_strobeMotion clock
  | hmclr => exact steady_clearMotion
  | vblank | wsync | cxclr | rsync | hmp0 | hmp1 | hmm1 | hmbl | audc0 | audc1 | audf0 | audf1
  | audv0 | audv1 => exact steady_id

/-- The frame as the scanline ceiling leaves it. -/
def cutFrame (s : Tia) (cycles : Nat) : FrameState :=
  if s.isPast cycles then { s.frame with drawing := false, overrun := true } else s.frame

/-- What the scanline ceiling asks of the processor. -/
def cutResponse (s : Tia) (cycles : Nat) : Response :=
  if s.isPast cycles then
    { stop := true
      events := if s.frame.overrun then [] else [.ceilingPassed s.settings.ceiling] }
  else {}

theorem enforceCeiling_clockOf (s : Tia) (cycles : Nat) :
    s.enforceCeiling (clockOf cycles) =
      ({ s with frame := s.cutFrame cycles }, s.cutResponse cycles) := by
  by_cases hpast : (s.settings.ceiling.toNat : Int) < s.beam.scanline (clockOf cycles)
  · have hcut : s.isPast cycles = true := decide_eq_true hpast
    simp only [enforceCeiling, cutFrame, cutResponse, hpast, hcut, if_true]
  · have hcut : s.isPast cycles = false := decide_eq_false hpast
    simp only [enforceCeiling, cutFrame, cutResponse, hpast, hcut, if_false, Bool.false_eq_true]

theorem steady_cutFrame (cycles : Nat) : Steady fun s ↦ { s with frame := s.cutFrame cycles } := by
  intro kept s
  have hpast : (s.view kept).isPast cycles = s.isPast cycles := rfl
  simp only [cutFrame, hpast]
  split <;> simp [view]

/-- Stores the byte of a write, the scanline ceiling having been looked at. -/
def store (s : Tia) (register : Register) (cycles : Nat) (value : UInt8) : Tia :=
  { s with
    frame := s.cutFrame cycles
    objects := { s.objects with registers := s.objects.registers.set register value } }

theorem steady_store (register : Register) (cycles : Nat) (value : UInt8) :
    Steady (·.store register cycles value) :=
  (Objects.steady_registers (·.set register value)).mapObjects.comp (steady_cutFrame cycles)

/-- What a write to a register does once the beam has caught up. -/
def takeEffect (s : Tia) (register : Register) (cycles : Nat) (afterRead : Bool) (value : UInt8) :
    Tia × Response :=
  (s.store register cycles value).actOn register (s.objects.registers.get register) value
    (clockOf cycles) cycles afterRead (s.cutResponse cycles)

theorem write_of_register (s : Tia) {address : UInt16} {register : Register}
    (h : Register.ofAddress? address.toUInt8 = some register) (cycles : Nat) (afterRead : Bool)
    (value : UInt8) :
    s.write cycles afterRead address value =
      (s.catchUp (clockOf cycles + register.delayOn (s.beam.lineCycle (clockOf cycles)))).takeEffect
        register cycles afterRead value := by
  simp only [write, h, enforceCeiling_clockOf]
  rfl

theorem write_of_none (s : Tia) {address : UInt16}
    (h : Register.ofAddress? address.toUInt8 = none) (cycles : Nat) (afterRead : Bool)
    (value : UInt8) :
    (s.write cycles afterRead address value).1 =
      { s.catchUp (clockOf cycles) with
        frame := (s.catchUp (clockOf cycles)).cutFrame cycles } := by
  simp only [write, h, enforceCeiling_clockOf]

theorem steady_takeEffect {register : Register} (h : ∀ which : Which, register ≠ which.resp)
    (cycles : Nat) (afterRead : Bool) (value : UInt8) :
    Steady fun s ↦ (s.takeEffect register cycles afterRead value).1 := by
  intro kept s
  have hact := steady_actOn h (s.objects.registers.get register) value (clockOf cycles) cycles
    afterRead (s.cutResponse cycles)
  exact hact.comp (steady_store register cycles value) kept s

theorem takeEffect_screen (s : Tia) {register : Register} (h : ∀ which : Which, register ≠ which.resp)
    (cycles : Nat) (afterRead : Bool) (value : UInt8) :
    (s.takeEffect register cycles afterRead value).1.screen = s.screen := by
  rcases actOn_screen (s.store register cycles value) register (s.objects.registers.get register)
    value (clockOf cycles) cycles afterRead (s.cutResponse cycles) with hkept | ⟨⟨which, hwhich⟩, -⟩
  · exact hkept
  · exact absurd hwhich (h which)

theorem takeEffect_beam (s : Tia) {register : Register} (h : ∀ which : Which, register ≠ which.resp)
    (cycles : Nat) (afterRead : Bool) (value : UInt8) :
    (s.takeEffect register cycles afterRead value).1.beam = s.beam :=
  congrArg Screen.beam (s.takeEffect_screen h cycles afterRead value)

theorem takeEffect_resp (s : Tia) (which : Which) (cycles : Nat) (afterRead : Bool) (value : UInt8) :
    (s.takeEffect which.resp cycles afterRead value).1 =
      (s.store which.resp cycles value).strobePlayer which (clockOf cycles) := by
  cases which <;> rfl

theorem isPast_catchUp (s : Tia) (cycles : Nat) (clock : Int) :
    (s.catchUp clock).isPast cycles = s.isPast cycles := by
  rw [isPast, isPast, scanlines, scanlines, scanline_catchUp, (s.catchUp_keeps clock).1]

theorem cutFrame_catchUp (s : Tia) (cycles : Nat) (clock : Int) :
    (s.catchUp clock).cutFrame cycles = s.cutFrame cycles := by
  rw [cutFrame, cutFrame, isPast_catchUp, catchUp_frame]

/-- The strobe of a player can be stored before the beam catches up or after it. -/
theorem store_catchUp {s : Tia} (hle : s.beam.lineLeft ≤ lineClocks) (which : Which) (cycles : Nat)
    (value : UInt8) (clock : Int) :
    (s.store which.resp cycles value).catchUp clock =
      (s.catchUp clock).store which.resp cycles value := by
  calc
    (s.store which.resp cycles value).catchUp clock =
        (s.withStrobe which value (s.cutFrame cycles)).catchUp clock := rfl
    _ = (s.catchUp clock).withStrobe which value (s.cutFrame cycles) :=
      catchUp_withStrobe hle which value (s.cutFrame cycles) clock
    _ = (s.catchUp clock).store which.resp cycles value := by
      rw [← cutFrame_catchUp s cycles clock]
      rfl

theorem steady_rebase (cycles : Nat) : Steady (·.rebase cycles) := by
  intro kept s
  simp [view, rebase, Beam.rebase]

/-! ## The beam -/

/-- A view that keeps everything tells the colours. -/
theorem shade_view (s : Tia) (column : Nat) : (s.view .all).shade column = s.shade column := rfl

/-- The end of a line makes the same of all players, whatever they waited for. -/
theorem endLine_view (kept : Kept) (o : Objects) :
    (o.view ⟨false, false, kept.star⟩).endLine.view kept = o.endLine.view kept := by
  rcases kept with ⟨_, _ | _, _ | _⟩ <;> rcases harmed : o.starField.armed <;>
    simp [Objects.view, Player.view, Objects.endLine, Objects.refreshPlayerMask, Pair.modify,
      Objects.sizeMode, Objects.stepStarField, Objects.missileSize, harmed]

theorem endLine_view_standing {star : Bool} {o : Objects}
    (h : star → o.starField.armed = false) :
    o.endLine.view (.standing star) = o.view (.standing star) := by
  cases star with
  | true =>
    simp [Objects.view, Player.view, Objects.endLine, Objects.refreshPlayerMask, Pair.modify,
      Kept.standing, h rfl]
  | false =>
    rcases harmed : o.starField.armed <;>
      simp [Objects.view, Player.view, Objects.endLine, Objects.refreshPlayerMask, Pair.modify,
        Kept.standing, Objects.stepStarField, harmed]

/-- The motion blank is over when the beam has passed the eighth column. -/
theorem tick_blankPending (s : Tia) :
    s.tick.blankPending = (s.blankPending && s.beam.nextClock ≠ edgeClocks - 1) := by
  have hpending : s.turnLine.blankPending = s.blankPending := by
    unfold turnLine
    split <;> rfl
  by_cases hblank : s.beam.nextClock < blankClocks
  · have hclock : s.beam.nextClock ≠ edgeClocks - 1 := by
      simp only [edgeClocks, blankClocks] at *
      omega
    have hsweep : lineClocks - s.turnLine.beam.lineLeft < blankClocks := by
      rwa [turnLine_lineLeft]
    rw [tick, sweepClock, if_pos hsweep, decide_eq_true hclock, Bool.and_true]
    exact hpending
  · obtain ⟨column, hcolumn⟩ := Nat.exists_eq_add_of_le (Nat.le_of_not_lt hblank)
    have hclock : lineClocks - s.turnLine.beam.lineLeft = blankClocks + column := by
      rw [turnLine_lineLeft, hcolumn]
    have hback : blankClocks + column - blankClocks = column := Nat.add_sub_cancel_left _ _
    have hedge : column = 7 ↔ blankClocks + column = edgeClocks - 1 := by
      simp only [edgeClocks, blankClocks]
      omega
    rw [tick, sweepClock, hclock, if_neg (by omega), hback, hcolumn]
    simp only [drawColumn, hpending, ne_eq, hedge]

theorem view_tick (kept : Kept) (s : Tia) :
    s.tick.view kept = { s.view .nothing with
      objects := s.tick.objects.view kept
      blankPending := kept.blank && s.tick.blankPending } := by
  unfold tick sweepClock turnLine
  dsimp only
  split_ifs <;> rfl

/-- The beam changes nothing but what lines age. -/
theorem view_standing_tick {star : Bool} {s : Tia}
    (h : star → s.objects.starField.armed = false) :
    s.tick.view (.standing star) = s.view (.standing star) := by
  have hobjects : s.tick.objects.view (.standing star) = s.objects.view (.standing star) := by
    rw [tick_objects]
    split
    · exact endLine_view_standing h
    · rfl
  rw [view_tick, hobjects]
  rfl

theorem view_standing_catchUp {star : Bool} {s : Tia} (hle : s.beam.lineLeft ≤ lineClocks)
    (h : star → s.objects.starField.armed = false) (clock : Int) :
    (s.catchUp clock).view (.standing star) = s.view (.standing star) := by
  refine catchUp_induction (motive := fun t ↦ t.view (.standing star) = s.view (.standing star))
    hle clock rfl fun t ht ↦ ?_
  have harmed : t.objects.starField.armed = s.objects.starField.armed :=
    congrArg (·.objects.starField.armed) ht
  exact (view_standing_tick (harmed ▸ h)).trans ht

theorem view_nothing_catchUp {s : Tia} (hle : s.beam.lineLeft ≤ lineClocks) (clock : Int) :
    (s.catchUp clock).view .nothing = s.view .nothing :=
  have hnone : false = true → s.objects.starField.armed = false := nofun
  view_standing_catchUp hle hnone clock

theorem armed_catchUp {s : Tia} (hle : s.beam.lineLeft ≤ lineClocks) (clock : Int) :
    (s.catchUp clock).objects.starField.armed = s.objects.starField.armed :=
  congrArg (·.objects.starField.armed) (view_nothing_catchUp hle clock)

end Vcs.Tia
