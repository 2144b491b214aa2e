import Vcs.Proofs.Tia.Passage

/-!
# The Star Field

A write to the motion of missile 0 right behind a motion strobe makes the missile run away.  From then on it
moves at the end of every line, by 68 columns in four lines, and is stretched, hidden and twice shown as usual
in turn.  Main statement: where it is and what is shown of it depends on nothing but the count of the line ends
that the beam has left behind, however accesses cut the lines, until a motion strobe puts an end to it.
-/

namespace Vcs.Tia

namespace Motion

/-- Columns to the left that the star field has moved missile 0 after some line ends. -/
def starFieldDrift (lines : Nat) : Int :=
  68 * ((lines / 4 : Nat) : Int) +
    match lines % 4 with
    | 0 => 0
    | 1 => 33
    | 2 => 33
    | _ => 50

theorem starFieldDrift_succ (lines : Nat) :
    starFieldDrift (lines + 1) =
      starFieldDrift lines + starFieldStep (UInt8.ofNat ((lines + 1) % 4)) := by
  obtain hphase | hphase | hphase | hphase : lines % 4 = 0 ∨ lines % 4 = 1 ∨ lines % 4 = 2 ∨
      lines % 4 = 3 := by omega
  · have hnext : (lines + 1) % 4 = 1 ∧ (lines + 1) / 4 = lines / 4 := by omega
    simp [starFieldDrift, starFieldStep, hphase, hnext]
  · have hnext : (lines + 1) % 4 = 2 ∧ (lines + 1) / 4 = lines / 4 := by omega
    simp [starFieldDrift, starFieldStep, hphase, hnext]
  · have hnext : (lines + 1) % 4 = 3 ∧ (lines + 1) / 4 = lines / 4 := by omega
    simp [starFieldDrift, starFieldStep, hphase, hnext]
    omega
  · have hnext : (lines + 1) % 4 = 0 ∧ (lines + 1) / 4 = lines / 4 + 1 := by omega
    simp [starFieldDrift, starFieldStep, hphase, hnext]
    omega

theorem toNat_wrap (position : Int) : ((wrap position).toNat : Int) = position % 160 := by
  have h0 := Int.emod_nonneg position (b := 160) (by decide)
  have h1 := Int.emod_lt_of_pos position (b := 160) (by decide)
  unfold wrap
  rw [UInt8.toNat_ofNat']
  omega

theorem wrap_congr {first second : Int} (h : first ≡ second [ZMOD 160]) :
    wrap first = wrap second :=
  congrArg (fun position : Int ↦ UInt8.ofNat position.toNat) h

end Motion

namespace Objects

/-- What the star field shows of missile 0, in turn. -/
def starMask (phase : Nat) (position mode size : UInt8) : Option Mask :=
  match phase with
  | 1 => some (.missile position mode (size ||| 1))
  | 2 => none
  | _ => some (.missile position mode size)

/-- Missile 0 on the line behind some line ends of a star field that has been armed with these objects. -/
def starMissile (o : Objects) (lines : Nat) : Missile :=
  let position := Motion.wrap (o.missiles.zero.position.toNat - Motion.starFieldDrift lines)
  { position := position
    mask := starMask (lines % 4) position (o.sizeMode .zero) (o.missileSize .zero) }

theorem stepStarField_missile {o : Objects} {phase : Nat} (hphase : phase < 4)
    (hnext : (o.starField.phase + 1) &&& 3 = UInt8.ofNat phase) :
    o.stepStarField.missiles.zero =
      let position := Motion.wrap
        (o.missiles.zero.position.toNat - Motion.starFieldStep (UInt8.ofNat phase))
      { position := position
        mask := starMask phase position (o.sizeMode .zero) (o.missileSize .zero) } := by
  rw [stepStarField, hnext]
  interval_cases phase <;> rfl

/-- Some line ends after the star field has been armed, with missile 0 as it was in `armed`. -/
structure StarsAfter (armed : Objects) (lines : Nat) (o : Objects) : Prop where
  starField : o.starField = { armed := true, phase := UInt8.ofNat (lines % 4) }
  missile : o.missiles.zero = if lines = 0 then armed.missiles.zero else armed.starMissile lines
  nusiz : o.registers.get .nusiz0 = armed.registers.get .nusiz0

namespace StarsAfter

variable {armed o : Objects} {lines : Nat} (h : StarsAfter armed lines o)

include h

theorem position : (o.missiles.zero.position.toNat : Int) ≡
    armed.missiles.zero.position.toNat - Motion.starFieldDrift lines [ZMOD 160] := by
  rw [h.missile]
  split
  · next hnone =>
    rw [hnone]
    simp [Motion.starFieldDrift]
  · simp only [starMissile, Motion.toNat_wrap]
    exact Int.mod_modEq _ _

/-- The position that the next line end gives to the missile. -/
theorem wrap_position (distance : Int) :
    Motion.wrap (o.missiles.zero.position.toNat + distance) =
      Motion.wrap (armed.missiles.zero.position.toNat - Motion.starFieldDrift lines + distance) :=
  Motion.wrap_congr (h.position.add_right distance)

theorem sizes : o.sizeMode .zero = armed.sizeMode .zero ∧
    o.missileSize .zero = armed.missileSize .zero :=
  ⟨congrArg (· &&& 0x07) h.nusiz, congrArg (fun sizes : UInt8 ↦ (sizes &&& 0x30) >>> 4) h.nusiz⟩

theorem nextPhase : (o.starField.phase + 1) &&& 3 = UInt8.ofNat ((lines + 1) % 4) := by
  have hcycle : ∀ phase : Fin 4,
      (UInt8.ofNat phase + 1) &&& 3 = UInt8.ofNat ((phase + 1) % 4 : Nat) := by decide
  have hmod : (lines + 1) % 4 = (lines % 4 + 1) % 4 := by omega
  rw [h.starField, hmod]
  exact hcycle ⟨lines % 4, Nat.mod_lt _ (by decide)⟩

theorem stepStarField : StarsAfter armed (lines + 1) o.stepStarField := by
  have hposition : Motion.wrap (o.missiles.zero.position.toNat -
        Motion.starFieldStep (UInt8.ofNat ((lines + 1) % 4))) =
      Motion.wrap (armed.missiles.zero.position.toNat - Motion.starFieldDrift (lines + 1)) := by
    have hstep := h.wrap_position (-Motion.starFieldStep (UInt8.ofNat ((lines + 1) % 4)))
    rwa [← Int.sub_eq_add_neg, ← Int.sub_eq_add_neg, Int.sub_sub,
      ← Motion.starFieldDrift_succ] at hstep
  have hon : o.starField.armed = true := by rw [h.starField]
  obtain ⟨hmode, hsize⟩ := h.sizes
  refine ⟨congrArg₂ StarField.mk hon h.nextPhase, ?_, h.nusiz⟩
  rw [stepStarField_missile (Nat.mod_lt _ (by decide)) h.nextPhase, hposition, hmode, hsize]
  rfl

/-- A line end takes the star field one line further. -/
theorem endLine : StarsAfter armed (lines + 1) o.endLine := by
  have hon : o.starField.armed = true := by rw [h.starField]
  let due := (o.refreshPlayerMask .zero).refreshPlayerMask .one
  have hend : o.endLine = due.stepStarField := if_pos hon
  have hdue : StarsAfter armed lines due := ⟨h.starField, h.missile, h.nusiz⟩
  rw [hend]
  exact hdue.stepStarField

/-- A motion strobe ends the star field and shows the missile as usual, where the strobe moves it. -/
theorem move (cycle : Nat) :
    (o.move cycle).starField.armed = false ∧
      (o.move cycle).missiles.zero =
        let position := Motion.wrap (armed.missiles.zero.position.toNat -
          Motion.starFieldDrift lines + Motion.applied cycle (o.registers.get .hmm0 >>> 4).toNat)
        { position := position
          mask := some (.missile position (armed.sizeMode .zero) (armed.missileSize .zero)) } := by
  obtain ⟨hmode, hsize⟩ := h.sizes
  refine ⟨rfl, ?_⟩
  change ({ position := o.movedBy cycle o.missiles.zero.position .hmm0
            mask := some (.missile (o.movedBy cycle o.missiles.zero.position .hmm0)
              (o.sizeMode .zero) (o.missileSize .zero)) } : Missile) = _
  rw [movedBy, h.wrap_position, hmode, hsize]

end StarsAfter

end Objects

/-- Writes that touch missile 0 or the star field. -/
def missile0Registers : List Register :=
  [.hmove, .resm0, .resmp0, .nusiz0, .hmm0]

/-- All other accesses leave them alone. -/
theorem settle_missile0 (s : Tia) {request : Access}
    (h : (FrameStep.access request).Spares missile0Registers) :
    (s.settle request).objects.missiles.zero = s.objects.missiles.zero ∧
      (s.settle request).objects.starField = s.objects.starField := by
  have hpart : ((s.settle request).objects.missiles.zero, (s.settle request).objects.starField) =
      (s.objects.missiles.zero, s.objects.starField) := by
    refine s.settle_part (fun t ↦ (t.objects.missiles.zero, t.objects.starField))
      (fun _ ↦ rfl) (fun _ _ _ _ ↦ rfl) ?_ fun _ _ _ _ _ ↦ rfl
    intro t register previous value clock cycles afterRead response hregister hplayer
    have hother : register ∉ missile0Registers := fun hmem ↦ h register hmem hregister
    cases register with
    | hmove | resm0 | resmp0 | nusiz0 | hmm0 => exact absurd (by decide) hother
    | resp0 | resp1 => exact absurd hplayer (by decide)
    | vsync => exact congrArg (fun o : Objects ↦ (o.missiles.zero, o.starField)) (writeSync_objects _ _ _)
    | refp0 | refp1 =>
      simp only [actOn, writeReflection]
      split <;> rfl
    | resmp1 =>
      simp only [actOn, writeMissileLock, mapObjects]
      split <;> rfl
    | _ => rfl
  exact ⟨congrArg Prod.fst hpart, congrArg Prod.snd hpart⟩

/-- While it runs the star field follows the beam from row to row. -/
theorem starsAfter_kept (row : Int) (armed : Objects) :
    KeptBut missile0Registers fun s ↦
      ∃ lines : Nat, s.beam.row = row + lines ∧ armed.StarsAfter lines s.objects where
  tick s hstep := by
    rintro ⟨lines, hrow, hstars⟩
    rcases tick_line hstep with ⟨hnext, hobjects⟩ | ⟨hnext, hobjects⟩
    · exact ⟨lines + 1, by push_cast; omega, hobjects ▸ hstars.endLine⟩
    · exact ⟨lines, hnext.trans hrow, hobjects ▸ hstars⟩
  settle s request hspares := by
    rintro ⟨lines, hrow, hstars⟩
    obtain ⟨hmissile, hstar⟩ := s.settle_missile0 hspares
    refine ⟨lines, (congrArg Beam.row (s.settle_beam request)).trans hrow, ?_, ?_, ?_⟩
    · rw [hstar, hstars.starField]
    · rw [hmissile, hstars.missile]
    · rw [← hstars.nusiz]
      exact s.settle_nusiz .zero (hspares .nusiz0 (by decide))
  rebase s cycles := by
    rintro ⟨lines, hrow, hstars⟩
    exact ⟨lines, (s.beam.row_rebase _).trans hrow, hstars⟩

/-- A motion strobe finds the star field as many lines on as the beam is then, and ends it. -/
theorem strobeMotion_starsAfter {s : Tia} (hle : s.beam.lineLeft ≤ lineClocks) {armed : Objects}
    {lines cycles : Nat} {address : UInt16} (hmotion : names address .hmove) (afterRead : Bool)
    (value : UInt8) (h : armed.StarsAfter lines (s.catchUp (clockOf cycles)).objects) :
    let struck := (s.perform (.write cycles afterRead address value)).2
    let motion := Motion.applied (s.beam.lineCycle (clockOf cycles))
      (s.objects.registers.get .hmm0 >>> 4).toNat
    struck.beam.row = (s.catchUp (clockOf cycles)).beam.row ∧
      struck.objects.starField.armed = false ∧
      struck.objects.missiles.zero =
        let position := Motion.wrap
          (armed.missiles.zero.position.toNat - Motion.starFieldDrift lines + motion)
        { position := position
          mask := some (.missile position (armed.sizeMode .zero) (armed.missileSize .zero)) } := by
  intro struck motion
  let caught := s.catchUp (clockOf cycles)
  have hnow : clockOf cycles + ((0 : Nat) : Int) = clockOf cycles := Int.add_zero _
  have hstruck : struck = (caught.takeEffect .hmove cycles afterRead value).1 := by
    refine (congrArg Prod.fst (s.write_of_register (of_decide_eq_true hmotion) cycles afterRead
      value)).trans ?_
    exact congrArg (fun clock ↦ ((s.catchUp clock).takeEffect .hmove cycles afterRead value).1) hnow
  have hcycle : caught.beam.lineCycle (clockOf cycles) = s.beam.lineCycle (clockOf cycles) :=
    catchUp_lineCycle hle _ _
  have hnibble : (caught.store .hmove cycles value).objects.registers.get .hmm0 =
      s.objects.registers.get .hmm0 :=
    (RegisterFile.get_set_of_ne _ (by decide) value).trans
      (congrArg (·.objects.registers.get .hmm0) (view_nothing_catchUp hle (clockOf cycles)))
  have hstored : armed.StarsAfter lines (caught.store .hmove cycles value).objects :=
    ⟨h.starField, h.missile, (RegisterFile.get_set_of_ne _ (by decide) value).trans h.nusiz⟩
  have hmoved : struck.objects =
      (caught.store .hmove cycles value).objects.move (s.beam.lineCycle (clockOf cycles)) := by
    rw [hstruck, ← hcycle]
    rfl
  have hbeam : struck.beam = caught.beam := by
    rw [hstruck]
    exact caught.takeEffect_beam (Register.ne_resp_of_player? rfl) cycles afterRead value
  obtain ⟨hoff, hmissile⟩ := hstored.move (s.beam.lineCycle (clockOf cycles))
  rw [hnibble] at hmissile
  rw [hbeam, hmoved]
  exact ⟨rfl, hoff, hmissile⟩

/-- The law of the star field.  It has just been armed; then anything is done in the frame but writes that touch
missile 0.  Behind any count of line ends the counter is that count modulo four, and missile 0 has moved to the
left by 68 columns for every four of them and by 0, 33, 33 or 50 for the rest; it is stretched behind the first
of four line ends, hidden behind the second and as usual otherwise.  So it is in every pixel that is drawn.  A
motion strobe ends the star field, and the missile is shown as usual where the strobe moves it. -/
theorem starField_runs {settings : Settings} {s : Tia} (h : InFrame settings s)
    (harmed : s.objects.starField = { armed := true, phase := 0 }) {steps : List FrameStep}
    (hspares : ∀ step ∈ steps, step.Spares missile0Registers) :
    let now := s.play steps
    (∃ lines : Nat, now.beam.row = s.beam.row + lines ∧ s.objects.StarsAfter lines now.objects) ∧
      (∀ row column chip, row < settings.height.toNat → column < frameWidth →
        s.Draws steps row column chip →
          ∃ lines : Nat, row = s.beam.row + lines ∧ s.objects.StarsAfter lines chip.objects) ∧
      ∀ cycles afterRead address value, names address .hmove →
        let struck := (now.perform (.write cycles afterRead address value)).2
        let motion := Motion.applied (now.beam.lineCycle (clockOf cycles))
          (now.objects.registers.get .hmm0 >>> 4).toNat
        ∃ lines : Nat, struck.beam.row = s.beam.row + lines ∧
          struck.objects.starField.armed = false ∧
          struck.objects.missiles.zero =
            let position := Motion.wrap
              (s.objects.missiles.zero.position.toNat - Motion.starFieldDrift lines + motion)
            { position := position
              mask := some (.missile position (s.objects.sizeMode .zero)
                (s.objects.missileSize .zero)) } := by
  intro now
  have kept := starsAfter_kept s.beam.row s.objects
  have hstart : ∃ lines : Nat, s.beam.row = s.beam.row + lines ∧
      s.objects.StarsAfter lines s.objects :=
    ⟨0, (Int.add_zero _).symm, harmed, rfl, rfl⟩
  have hnow : InFrame settings now := h.play steps
  have hrun := kept.play h hspares hstart
  refine ⟨hrun, fun row column chip hrow hcolumn hchip ↦ ?_,
    fun cycles afterRead address value hmotion ↦ ?_⟩
  · rw [← hchip.row_eq h hrow hcolumn]
    exact kept.draws h hspares hchip hstart
  · obtain ⟨lines, hlines, hstars⟩ := kept.catchUp hnow (clockOf cycles) hrun
    obtain ⟨hrow, hoff, hmissile⟩ :=
      strobeMotion_starsAfter hnow.inStep.lineLeft_le hmotion afterRead value hstars
    exact ⟨lines, hrow.trans hlines, hoff, hmissile⟩

/-- Five line ends behind a write that arms the star field, and a motion strobe on the line after them. -/
theorem starField_runs_of_read :
    let s := ((Tia.new {}).started { yStart := 0, height := 8 }).play
      [.access (.write 3 true 0x22 0x70), .access (.write 5 true 0x2A 0),
        .access (.write 26 true 0x22 0x60)]
    let now := s.play [.access (.read 390 0 {} 0x02)]
    let struck := (now.perform (.write 400 true 0x2A 0)).2
    s.objects.starField = { armed := true, phase := 0 } ∧
      s.objects.missiles.zero.position = 155 ∧
      now.objects.starField = { armed := true, phase := 1 } ∧
      now.objects.missiles.zero = { position := 54, mask := some (.missile 54 0 1) } ∧
      struck.objects.starField.armed = false ∧
      struck.objects.missiles.zero = { position := 60, mask := some (.missile 60 0 0) } := by
  intro s now struck
  have hframe := (started_inFrame (Tia.new {}) { yStart := 0, height := 8 }).play
    [.access (.write 3 true 0x22 0x70), .access (.write 5 true 0x2A 0),
      .access (.write 26 true 0x22 0x60)]
  have harmed : s.objects.starField = { armed := true, phase := 0 } :=
    congrArg₂ StarField.mk (by decide +kernel) (by decide +kernel)
  have hposition : s.objects.missiles.zero.position = 155 := by decide +kernel
  have hspares : ∀ step ∈ [FrameStep.access (.read 390 0 {} 0x02)], step.Spares missile0Registers :=
    List.forall_mem_singleton.mpr (FrameStep.spares_of_isRead rfl _)
  obtain ⟨⟨lines, hlines, hstars⟩, -, hmotion⟩ := starField_runs hframe harmed hspares
  obtain ⟨lines', hlines', hoff, hmissile⟩ := hmotion 400 true 0x2A 0 (by decide)
  obtain rfl : lines = 5 := by
    have hrows : now.beam.row = s.beam.row + 5 := by decide +kernel
    exact_mod_cast Int.add_left_cancel (hlines.symm.trans hrows)
  obtain rfl : lines' = 5 := by
    have hrows : struck.beam.row = s.beam.row + 5 := by decide +kernel
    exact_mod_cast Int.add_left_cancel (hlines'.symm.trans hrows)
  have hmode : s.objects.sizeMode .zero = 0 ∧ s.objects.missileSize .zero = 0 := by decide +kernel
  have hcycle : Motion.applied (now.beam.lineCycle (clockOf 400))
      (now.objects.registers.get .hmm0 >>> 4).toNat = 6 := by decide +kernel
  refine ⟨harmed, hposition, hstars.starField, hstars.missile.trans ?_, hoff, hmissile.trans ?_⟩
  · rw [if_neg (by decide), Objects.starMissile, hposition, hmode.1, hmode.2]
    rfl
  · rw [hposition, hmode.1, hmode.2, hcycle]
    rfl

end Vcs.Tia
