import Vcs.Proofs.Tia.Cache
import Vcs.Proofs.Tia.Operation

/-!
# Derived State

Every write stores a byte and then refreshes the caches that follow from its register, the end of a line and a
motion strobe refresh the masks they move, and nothing else touches either.  So no cache is stale between two
operations.  Main statement: in every state that a chip gets into after power-on, the derived state is what the
registers say.
-/

namespace Vcs.Tia

theorem turnLine_current {s : Tia} (h : s.objects.Current) : s.turnLine.objects.Current := by
  unfold turnLine
  split
  · exact Objects.Current.endLine h
  · exact h

theorem sweepClock_objects (s : Tia) : s.sweepClock.objects = s.objects := by
  unfold sweepClock
  dsimp only
  split <;> rfl

theorem tick_current {s : Tia} (h : s.objects.Current) : s.tick.objects.Current := by
  rw [tick, sweepClock_objects]
  exact turnLine_current h

theorem catchUp_current {s : Tia} (hle : s.beam.lineLeft ≤ lineClocks) (h : s.objects.Current)
    (clock : Int) : (s.catchUp clock).objects.Current :=
  catchUp_induction (motive := fun t ↦ t.objects.Current) hle clock h fun _ ↦ tick_current

section Writes

open Objects

variable {s : Tia}

theorem strobeColumn_lt (lineClock latency : Nat) {inBlank : Nat} (hblank : inBlank < columns) :
    (strobeColumn lineClock latency inBlank).toNat < columns := by
  unfold strobeColumn
  split
  · exact toNat_ofNat_lt hblank
  · exact toNat_ofNat_lt (Nat.mod_lt _ (by decide))

theorem strobePlayer_current (hle : s.beam.lineLeft ≤ lineClocks) (h : s.objects.Current)
    (which : Which) (clock : Int) : (s.strobePlayer which clock).objects.Current := by
  have hlt : (strobeColumn (s.beam.lineClock clock) 5 3).toNat < columns :=
    strobeColumn_lt _ _ (by decide)
  have hplace (t : Tia) (ht : t.objects.Current) (skipFirst : Bool) :
      (t.objects.placePlayer which (strobeColumn (s.beam.lineClock clock) 5 3) skipFirst).Current :=
    (ht.mono_nil [.playerMask which]).placePlayer which hlt skipFirst
  unfold strobePlayer
  dsimp only
  split
  · exact hplace _ (catchUp_current hle h _) true
  · exact hplace _ h true
  · exact hplace _ h false

theorem strobeMissile_current (h : s.objects.Current) (which : Which) (clock : Int) :
    (s.strobeMissile which clock).objects.Current := by
  have hline : (s.lineStrobeColumn clock).toNat < columns := strobeColumn_lt _ _ (by decide)
  apply (h.mono_nil [.missileMask which]).placeMissile
  cases which
  · dsimp only
    split
    · decide
    · exact hline
  · dsimp only
    split
    · decide
    · exact hline

theorem strobeBall_current (h : s.objects.Current) (clock : Int) :
    (s.strobeBall clock).objects.Current := by
  have hline : (s.lineStrobeColumn clock).toNat < columns := strobeColumn_lt _ _ (by decide)
  apply (h.mono_nil [.ballMask]).placeBall
  split_ifs
  · decide
  · decide
  · decide
  · decide
  · exact hline

theorem writeReflection_current (h : s.objects.Current) (which : Which) (value : UInt8) :
    ((s.mapObjects (·.store which.refp value)).writeReflection which
      (s.objects.registers.get which.refp) value).objects.Current := by
  have hreflect := Current.reflect h which value
  by_cases hflip : (s.objects.registers.get which.refp ^^^ value) &&& 0x08 != 0
  · simp only [if_pos hflip] at hreflect
    rw [writeReflection, if_pos hflip]
    exact hreflect
  · simp only [if_neg hflip] at hreflect
    rw [writeReflection, if_neg hflip]
    cases which
    · exact hreflect
    · exact hreflect

theorem writeGraphic0_current (h : s.objects.CurrentBut [.graphic .zero]) :
    s.writeGraphic0.objects.Current := by
  have hdelayed := h.delayPlayer .one (s.objects.registers.get .grp1)
  have hordered := hdelayed.mono [.graphic .zero, .graphic .one] (by decide)
  exact (hordered.refreshGraphic .zero).refreshGraphic .one

theorem writeGraphic1_current (h : s.objects.CurrentBut [.graphic .one]) :
    s.writeGraphic1.objects.Current := by
  have hdelayed := (h.delayPlayer .zero (s.objects.registers.get .grp0)).delayBall
    (s.objects.registers.test .enabl 0x02)
  have hordered := hdelayed.mono [.graphic .zero, .graphic .one, .ballEnable] (by decide)
  exact ((hordered.refreshGraphic .zero).refreshGraphic .one).refreshBallEnable

theorem writeSync_objects (previous value : UInt8) (clock : Int) :
    (s.writeSync previous value clock).2.objects = s.objects := by
  unfold writeSync
  dsimp only
  split_ifs <;> rfl

/-- Storing a byte and doing what its register is for leaves no cache stale. -/
theorem actOn_current (hle : s.beam.lineLeft ≤ lineClocks) (h : s.objects.Current)
    (register : Register) (value : UInt8) (clock : Int) (cycles : Nat) (afterRead : Bool)
    (response : Response) :
    ((s.mapObjects (·.store register value)).actOn register (s.objects.registers.get register) value
      clock cycles afterRead response).1.objects.Current := by
  let stored := s.mapObjects (·.store register value)
  have hstored : stored.objects.CurrentBut register.readers := CurrentBut.store h register value
  cases register with
  | vsync =>
    have hkept : (stored.writeSync (s.objects.registers.get .vsync) value clock).2.objects =
        stored.objects := writeSync_objects _ value clock
    rw [actOn, hkept]
    exact hstored
  | nusiz0 => exact (CurrentBut.refreshPlayerMask .zero hstored).refreshMissileMask .zero
  | nusiz1 => exact (CurrentBut.refreshPlayerMask .one hstored).refreshMissileMask .one
  | colup0 | colup1 | colupf | colubk => exact CurrentBut.store hstored _ _
  | ctrlpf =>
    have hmodes := CurrentBut.setModes hstored
    have hvalue : stored.objects.registers.get .ctrlpf = value := RegisterFile.get_set_self _ _ _
    rw [hvalue] at hmodes
    exact hmodes.refreshBallMask
  | refp0 => exact writeReflection_current h .zero value
  | refp1 => exact writeReflection_current h .one value
  | pf0 | pf1 | pf2 => exact CurrentBut.refreshPlayfield hstored
  | resp0 => exact strobePlayer_current (s := stored) hle hstored .zero clock
  | resp1 => exact strobePlayer_current (s := stored) hle hstored .one clock
  | resm0 => exact strobeMissile_current (s := stored) hstored .zero clock
  | resm1 => exact strobeMissile_current (s := stored) hstored .one clock
  | resbl => exact strobeBall_current (s := stored) hstored clock
  | grp0 => exact writeGraphic0_current (s := stored) hstored
  | grp1 => exact writeGraphic1_current (s := stored) hstored
  | enam0 => exact CurrentBut.refreshMissileEnable .zero hstored
  | enam1 => exact CurrentBut.refreshMissileEnable .one hstored
  | enabl | vdelbl => exact CurrentBut.refreshBallEnable hstored
  | vdelp0 => exact CurrentBut.refreshGraphic .zero hstored
  | vdelp1 => exact CurrentBut.refreshGraphic .one hstored
  | hmm0 =>
    simp only [actOn]
    split
    · exact Current.arm hstored 0
    · exact hstored
  | resmp0 => exact Current.lock h .zero value _
  | resmp1 => exact Current.lock h .one value _
  | hmove => exact Current.move hstored _
  | hmclr => exact Current.storeAll hstored (fun _ _ ↦ 0) (by decide)
  | _ => exact hstored

theorem write_current (hle : s.beam.lineLeft ≤ lineClocks) (h : s.objects.Current) (cycles : Nat)
    (afterRead : Bool) (address : UInt16) (value : UInt8) :
    (s.write cycles afterRead address value).1.objects.Current := by
  have hcaught (clock : Int) : ((s.catchUp clock).enforceCeiling (clockOf cycles)).1.objects.Current ∧
      ((s.catchUp clock).enforceCeiling (clockOf cycles)).1.beam.lineLeft ≤ lineClocks := by
    obtain ⟨frame, hframe⟩ := (s.catchUp clock).enforceCeiling_eq (clockOf cycles)
    rw [hframe]
    exact ⟨catchUp_current hle h clock, catchUp_lineLeft_le hle clock⟩
  simp only [write]
  split
  · exact (hcaught _).1
  · next register _ =>
    obtain ⟨hcurrent, hleft⟩ := hcaught
      (clockOf cycles + register.delayOn (s.beam.lineCycle (clockOf cycles)))
    exact actOn_current hleft hcurrent register value (clockOf cycles) cycles afterRead _

end Writes

theorem beginFrame_current {s : Tia} (h : s.objects.Current) (carry : Int) :
    (s.beginFrame carry).objects.Current := by
  by_cases hloss : s.settings.colorLoss
  · simp only [beginFrame, if_pos hloss]
    exact Objects.Current.storeAll h _ (by decide)
  · simp only [beginFrame, if_neg hloss]
    exact h

theorem operate_current {s : Tia} (hle : s.beam.lineLeft ≤ lineClocks) (h : s.objects.Current)
    (operation : Operation) : (s.operate operation).objects.Current := by
  cases operation with
  | access request =>
    cases request with
    | read cycles dataBus ports address => exact catchUp_current hle h _
    | write cycles afterRead address value => exact write_current hle h cycles afterRead address value
  | beginFrame carry => exact beginFrame_current h carry
  | finishFrame cycles =>
    simp only [operate, finishFrame]
    split <;> exact h
  | rebase cycles => exact h
  | setSettings settings => exact h
  | reset cycles => exact Objects.current_default

/-- No cache is ever stale between two operations. -/
theorem run_current (start : PowerUp) (operations : List Operation) :
    (start.chip.run operations).objects.Current := by
  have hboth := run_induction
    (motive := fun s ↦ s.beam.lineLeft ≤ lineClocks ∧ s.objects.Current) start
    ⟨powerUp_lineLeft_le start, by cases start <;> exact Objects.current_default⟩
    (fun s operation h ↦
      ⟨operate_lineLeft_le h.1 operation, operate_current h.1 h.2 operation⟩) operations
  exact hboth.2

/-! ## The registers decide -/

namespace Objects

/-- What the chip keeps is a function of its registers, its positions and what vertical delay holds back.  Of the
masks this can be said only by what they show: the one an object has until it is first placed is not the one it
would be given, and a player may leave out its first copy. -/
structure FollowsRegisters (o : Objects) : Prop where
  playfield : o.playfield = (o.registers.get .pf0 >>> 4).toUInt32 |||
    (o.registers.get .pf1).toUInt32 <<< 4 ||| (o.registers.get .pf2).toUInt32 <<< 12
  modes : o.modes = (o.registers.get .ctrlpf &&& 0x06) <<< 5
  graphic : ∀ (which : Which) (bit : Fin 8),
    (o.players.get which).graphic.toNat.testBit bit =
      (if o.registers.test which.vdelp 0x01 then (o.players.get which).delayed
        else o.registers.get which.grp).toNat.testBit
        (if o.registers.test which.refp 0x08 then 7 - bit else bit)
  playfieldEnabled : o.enabled.meets .playfield = (o.playfield != 0)
  ballEnabled : o.enabled.meets .ball =
    if o.registers.test .vdelbl 0x01 then o.ball.delayed else o.registers.test .enabl 0x02
  missileEnabled : ∀ which : Which, o.enabled.meets which.missile =
    (o.registers.test which.enam 0x02 && !o.registers.test which.resmp 0x02)
  playerEnabled : ∀ which : Which,
    o.enabled.meets which.player = ((o.players.get which).graphic != 0)
  nothingElse : o.enabled &&& 0xC0 = 0
  ballMask : ∀ column < columns, o.ball.mask.coversBall column =
    (Mask.ball o.ball.position ((o.registers.get .ctrlpf &&& 0x30) >>> 4)).coversBall column
  playerMask : ∀ which, ∃ skipFirst, ∀ column < columns,
    (o.players.get which).mask.playerBit column =
      (Mask.player (o.players.get which).position skipFirst (o.sizeMode which)).playerBit column
  missileMask : ∀ which, (which = .zero → o.starField.armed = false) → ∀ column < columns,
    showsMissile (o.missiles.get which) column =
      (Mask.missile (o.missiles.get which).position (o.sizeMode which)
        (o.missileSize which)).coversMissile column
  missileHidden : ∀ which, (o.missiles.get which).mask = none → which = .zero ∧ o.starField.armed

theorem Current.followsRegisters {o : Objects} (h : o.Current) : o.FollowsRegisters := by
  have hholds (cache : Cache) : o.Holds cache := h.holds cache List.not_mem_nil
  constructor
  case playfield => exact (hholds .playfield).1
  case modes => exact hholds .modes
  case graphic =>
    intro which bit
    rw [(hholds (.graphic which)).1, shownGraphic]
    split
    · rw [testBit_reflect]
      rfl
    · rfl
  case playfieldEnabled =>
    obtain ⟨hbits, hmeets⟩ := hholds .playfield
    rw [hmeets, hbits]
  case ballEnabled => exact hholds .ballEnable
  case missileEnabled => exact fun which ↦ hholds (.missileEnable which)
  case playerEnabled =>
    intro which
    obtain ⟨hgraphic, hmeets⟩ := hholds (.graphic which)
    rw [hmeets, hgraphic]
  case nothingElse =>
    have hspare : (o.enabled &&& 0xC0 != 0) = false := hholds .spare
    simpa [bne] using hspare
  case ballMask =>
    intro column hcolumn
    exact (hholds .ballMask).cell_place h.placed.ball (Mask.ballShape_lt _) _ hcolumn false
  case playerMask =>
    intro which
    obtain ⟨skipFirst, hshows⟩ := hholds (.playerMask which)
    refine ⟨skipFirst, fun column hcolumn ↦ ?_⟩
    exact hshows.cell_place (h.placed.player which) (Mask.playerShape_lt _ _) _ hcolumn 0
  case missileMask =>
    intro which hcalm column hcolumn
    obtain ⟨hshows, hhidden⟩ := hholds (.missileMask which)
    have hunarmed (hwhich : which = .zero) : ¬ o.starField.armed := by
      simp [hcalm hwhich]
    rcases hmask : (o.missiles.get which).mask with _ | mask
    · obtain ⟨hwhich, harmed⟩ := hhidden hmask
      exact absurd harmed (hunarmed hwhich)
    · obtain ⟨size, rfl | ⟨hwhich, harmed, -⟩, hplaced⟩ := hshows mask hmask
      · rw [showsMissile, hmask]
        exact hplaced.cell_place (h.placed.missile which) (Mask.missileShape_lt _ _) _ hcolumn
          false
      · exact absurd harmed (hunarmed hwhich)
  case missileHidden => exact fun which ↦ (hholds (.missileMask which)).2

end Objects

/-- Whatever is done to a chip after power-on, the derived state is what its registers say. -/
theorem run_followsRegisters (start : PowerUp) (operations : List Operation) :
    (start.chip.run operations).objects.FollowsRegisters :=
  (run_current start operations).followsRegisters

end Vcs.Tia
