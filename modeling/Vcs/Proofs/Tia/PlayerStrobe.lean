import Vcs.Proofs.Tia.Coverage
import Vcs.Proofs.Tia.Lookup
import Vcs.Proofs.Tia.Passage

/-!
# Player Strobes

The strobe of a player moves it at once.  Where that would show a copy twice on a line the copy at the new
position waits, and where a copy is being drawn the beam first goes on for eleven clocks with the player as it
was.  Main statements: which row the new copy waits on, and how much of the old copy is drawn.

Both differ a little from what they stand for.  The copy waits on the row that the strobe leaves the beam on,
and this is the row of the strobe unless the beam has gone past the end of its line, or has not yet left the
line before.  The eleven clocks are enough for a copy of eight columns, not for one of sixteen or thirty-two.
-/

namespace Vcs.Tia

/-- Columns from the position of a player to its first copy. -/
def firstStart (mode : Nat) : Nat :=
  if playerScale mode = 1 then 0 else 1

theorem firstStart_mem (mode : Nat) : firstStart mode ∈ playerStarts false mode := by
  unfold firstStart
  split
  · next hscale => exact (mem_playerStarts_of_narrow hscale).mpr ⟨zero_mem_copyOffsets mode, nofun⟩
  · next hscale => exact (mem_playerStarts_of_wide hscale).mpr ⟨rfl, rfl⟩

/-- A player that skips its first copy shows all the others. -/
theorem mem_playerStarts_true {mode start : Nat} :
    start ∈ playerStarts true mode ↔ start ∈ playerStarts false mode ∧ start ≠ firstStart mode := by
  unfold firstStart
  split
  · next hscale => simp [mem_playerStarts_of_narrow hscale]
  · next hscale => simp [mem_playerStarts_of_wide hscale]

/-- In the columns of its first copy a player shows nothing, or the bit of its graphic that lies there. -/
theorem playerRow_first (graphic : UInt8) (skipFirst : Bool) {mode column : Nat}
    (hin : ringDistance (firstStart mode) column < 8 * playerScale mode) (hcolumn : column < columns) :
    (graphic &&& (playerRow skipFirst mode)[column] != 0) =
      (!skipFirst &&
        graphic.toNat.testBit (7 - ringDistance (firstStart mode) column / playerScale mode)) := by
  cases skipFirst with
  | false => rw [getElem_playerRow (firstStart_mem mode) hin hcolumn, graphicBit_shown _ hin]; rfl
  | true =>
    have hnone : ¬∃ start ∈ playerStarts true mode,
        ringDistance start column < 8 * playerScale mode := by
      rintro ⟨start, hstart, hreached⟩
      obtain ⟨hshown, hother⟩ := mem_playerStarts_true.mp hstart
      exact hother (playerStarts_apart hshown (firstStart_mem mode) hreached hin)
    rw [getElem_playerRow_of_none hnone hcolumn]
    simp

/-- So a player covers these columns if it is enabled and does not skip the copy. -/
theorem covering_first {o : Objects} {which : Which} {position mode : UInt8} {skipFirst : Bool}
    (hmask : (o.players.get which).mask = .player position skipFirst mode)
    (hposition : position.toNat < columns) (hmode : mode.toNat < 8) {column : Nat}
    (hcolumn : column < columns)
    (hin : ringDistance (position.toNat + firstStart mode.toNat) column <
      8 * playerScale mode.toNat) :
    (o.covering column).meets which.player =
      (!skipFirst && (o.enabled.meets which.player &&
        (o.players.get which).graphic.toNat.testBit
          (7 - ringDistance (position.toNat + firstStart mode.toNat) column /
            playerScale mode.toNat))) := by
  obtain ⟨byte, rfl⟩ : ∃ byte : UInt8, byte.toNat = column :=
    ⟨.ofNat column, UInt8.toNat_ofNat_of_lt' (Nat.lt_trans hcolumn (by decide))⟩
  have hmod : mode.toNat % 8 = mode.toNat := Nat.mod_eq_of_lt hmode
  have hlt := ringDistance_lt position.toNat byte.toNat
  have hshown : Objects.showsPlayer (o.players.get which) byte.toNat = (!skipFirst &&
      (o.players.get which).graphic.toNat.testBit
        (7 - ringDistance (position.toNat + firstStart mode.toNat) byte.toNat /
          playerScale mode.toNat)) := by
    rw [← ringDistance_add] at hin ⊢
    rw [Objects.showsPlayer, hmask, player_playerBit_eq hposition hcolumn, hmod, Row.along_eq _ hlt]
    exact playerRow_first _ skipFirst hin hlt
  calc
    (o.covering byte.toNat).meets which.player =
        (o.enabled.meets which.player && Objects.showsPlayer (o.players.get which) byte.toNat) := by
      rw [Objects.covering_eq]
      exact ObjectSet.meets_ofFigures _ (.player which)
    _ = _ := by
      rw [hshown]
      exact Bool.and_left_comm _ _ _

/-- Writes that move a player or change its copies. -/
def playerRegisters (which : Which) : List Register :=
  [which.resp, which.nusiz, .hmove]

/-- All other accesses leave it where it is. -/
theorem settle_player (s : Tia) (which : Which) {request : Access}
    (h : (FrameStep.access request).Spares (playerRegisters which)) :
    ((s.settle request).objects.players.get which).position =
        (s.objects.players.get which).position ∧
      ((s.settle request).objects.players.get which).mask =
        (s.objects.players.get which).mask := by
  let place (o : Objects) : UInt8 × Mask :=
    ((o.players.get which).position, (o.players.get which).mask)
  have hpart : place (s.settle request).objects = place s.objects := by
    refine s.settle_part (fun t ↦ place t.objects) (fun _ ↦ rfl) (fun _ _ _ _ ↦ rfl) ?_ ?_
    · intro t register previous value clock cycles afterRead response hregister hplayer
      have hother : register ∉ playerRegisters which := fun hmem ↦ h register hmem hregister
      cases register with
      | hmove => exact absurd (by simp [playerRegisters]) hother
      | resp0 | resp1 => exact absurd hplayer (by decide)
      | nusiz0 | nusiz1 =>
        cases which <;> first | rfl | exact absurd (by decide) hother
      | vsync => exact congrArg place (writeSync_objects _ _ _)
      | refp0 | refp1 =>
        simp only [actOn, writeReflection]
        split <;> cases which <;> rfl
      | hmm0 =>
        simp only [actOn]
        split <;> rfl
      | resmp0 | resmp1 =>
        simp only [actOn, writeMissileLock, mapObjects]
        split <;> cases which <;> rfl
      | _ => cases which <;> rfl
    · intro t strobed position skipFirst hstrobed
      have hother : strobed ≠ which := by
        rintro rfl
        exact h strobed.resp (by simp [playerRegisters]) hstrobed
      cases which <;> cases strobed <;> first | rfl | exact absurd rfl hother
  exact ⟨congrArg Prod.fst hpart, congrArg Prod.snd hpart⟩

/-- At the end of a line all copies of the players are due. -/
theorem endLine_player (o : Objects) (which : Which) :
    o.endLine.players.get which = { o.players.get which with
      mask := .player (o.players.get which).position false (o.sizeMode which) } := by
  unfold Objects.endLine
  dsimp only
  split <;> cases which <;> rfl

/-! ## The copy that waits -/

/-- A player stands at a position, and its first copy there waits as long as the beam is on a row. -/
structure Waits (which : Which) (position mode : UInt8) (row : Int) (s : Tia) : Prop where
  row_le : row ≤ s.beam.row
  position_eq : (s.objects.players.get which).position = position
  sizeMode_eq : s.objects.sizeMode which = mode
  mask_eq : (s.objects.players.get which).mask = .player position (s.beam.row = row) mode

/-- The copy is due when the beam has left the row. -/
theorem waits_kept (which : Which) (position mode : UInt8) (row : Int) :
    KeptBut (playerRegisters which) (Waits which position mode row) where
  tick s hstep h := by
    have hle := h.row_le
    rcases tick_line hstep with ⟨hrow, hobjects⟩ | ⟨hrow, hobjects⟩
    · have hpast : decide (s.tick.beam.row = row) = false := decide_eq_false (by omega)
      have hmode : s.objects.endLine.sizeMode which = mode := by
        rw [Objects.sizeMode, endLine_registers]
        exact h.sizeMode_eq
      refine ⟨by omega, ?_, ?_, ?_⟩
      · rw [hobjects, endLine_player]
        exact h.position_eq
      · rw [hobjects, hmode]
      · rw [hpast, hobjects, endLine_player, h.position_eq, h.sizeMode_eq]
    · exact ⟨hrow ▸ hle, hobjects ▸ h.position_eq, hobjects ▸ h.sizeMode_eq,
        by rw [hrow, hobjects, h.mask_eq]⟩
  settle s request hspares h := by
    obtain ⟨hposition, hmask⟩ := s.settle_player which hspares
    have hmode : (s.settle request).objects.sizeMode which = s.objects.sizeMode which :=
      congrArg (· &&& 0x07) (s.settle_nusiz which (hspares which.nusiz (by simp [playerRegisters])))
    have hbeam := s.settle_beam request
    exact ⟨hbeam ▸ h.row_le, hposition.trans h.position_eq, hmode.trans h.sizeMode_eq,
      by rw [hbeam, hmask, h.mask_eq]⟩
  rebase s cycles h := by
    have hrow : (s.rebase cycles).beam.row = s.beam.row := s.beam.row_rebase _
    exact ⟨hrow ▸ h.row_le, h.position_eq, h.sizeMode_eq, by rw [hrow]; exact h.mask_eq⟩

section Strobe

variable {settings : Settings} {s : Tia} (h : InFrame settings s) {which : Which} {cycles : Nat}
  {address : UInt16} (hstrobe : names address which.resp) (afterRead : Bool) (value : UInt8)

theorem player?_resp (which : Which) : which.resp.player? = some which := by
  cases which <;> rfl

theorem strobePosition_lt (s : Tia) (clock : Int) : (s.strobePosition clock).toNat < columns :=
  strobeColumn_lt _ _ (by decide)

include hstrobe

theorem reachOf_of_strobe : s.reachOf (.write cycles afterRead address value) =
    clockOf cycles + (s.strobeTiming which (clockOf cycles)).lookAhead := by
  have hregister : Register.ofAddress? address.toUInt8 = some which.resp := of_decide_eq_true hstrobe
  simp only [reachOf, Access.register?, Access.cycles, hregister, player?_resp]

include h

/-- The strobe puts the player on its new column, and leaves everything else of it as the beam finds it. -/
theorem perform_strobe :
    let struck := (s.perform (.write cycles afterRead address value)).2
    let caught := s.catchUp (s.reachOf (.write cycles afterRead address value))
    let position := s.strobePosition (clockOf cycles)
    let mode := s.objects.sizeMode which
    struck.beam = caught.beam ∧ struck.objects.sizeMode which = mode ∧
      struck.objects.players.get which = { caught.objects.players.get which with
        position := position
        mask := .player position (s.strobeTiming which (clockOf cycles)).skipsFirst mode } := by
  intro struck caught position mode
  have hle := h.inStep.lineLeft_le
  have hregister : Register.ofAddress? address.toUInt8 = some which.resp := of_decide_eq_true hstrobe
  have hstruck : struck = caught.settle (.write cycles afterRead address value) :=
    perform_eq_settle hle _
  obtain ⟨hposition, htiming⟩ := strobeTiming_catchUp hle which (clockOf cycles)
    (s.reachOf (.write cycles afterRead address value))
  have hmode : (caught.store which.resp cycles value).objects.sizeMode which = mode := by
    have hcaught : caught.objects.sizeMode which = mode :=
      congrArg (·.objects.sizeMode which) (view_nothing_catchUp hle _)
    exact (congrArg (· &&& 0x07) (nusiz_withStrobe caught.objects which which value)).trans hcaught
  have hplaced (o : Objects) (skipFirst : Bool) :
      (o.placePlayer which position skipFirst).players.get which =
        { o.players.get which with
          position := position, mask := .player position skipFirst (o.sizeMode which) } := by
    cases which <;> rfl
  refine ⟨?_, ?_, ?_⟩
  · rw [hstruck, settle_beam]
  · simp only [hstruck, settle, hregister, player?_resp]
    exact hmode
  · simp only [hstruck, settle, hregister, player?_resp, mapObjects]
    rw [hposition, htiming, hplaced, hmode]
    rfl

/-- Outside of a start delay the copy at the new position waits on the row that the strobe leaves the beam on. -/
theorem perform_waits (htiming : s.strobeTiming which (clockOf cycles) ≠ .inDelay) :
    let struck := (s.perform (.write cycles afterRead address value)).2
    Waits which (s.strobePosition (clockOf cycles)) (s.objects.sizeMode which) struck.beam.row
      struck := by
  intro struck
  obtain ⟨-, hmode, hplayer⟩ := perform_strobe h hstrobe afterRead value
  have hskips : (s.strobeTiming which (clockOf cycles)).skipsFirst = true := by
    cases hcase : s.strobeTiming which (clockOf cycles) with
    | inDelay => exact absurd hcase htiming
    | clear | midCopy => rfl
  refine ⟨Int.le_refl _, ?_, hmode, ?_⟩
  · exact congrArg Player.position hplayer
  · rw [decide_eq_true rfl, ← hskips]
    exact congrArg Player.mask hplayer

/-- In the columns of the copy at the new position the player shows nothing on the row that the copy waits on, and
the bit of its graphic that lies there on every other row. -/
theorem perform_covering (htiming : s.strobeTiming which (clockOf cycles) ≠ .inDelay)
    {steps : List FrameStep} (hspares : ∀ step ∈ steps, step.Spares (playerRegisters which))
    {shown column : Nat} {chip : Tia} (hshown : shown < settings.height.toNat)
    (hcolumn : column < frameWidth) :
    let struck := (s.perform (.write cycles afterRead address value)).2
    let first := (s.strobePosition (clockOf cycles)).toNat +
      firstStart (s.objects.sizeMode which).toNat
    let scale := playerScale (s.objects.sizeMode which).toNat
    struck.Draws steps shown column chip → ringDistance first column < 8 * scale →
      (chip.objects.covering column).meets which.player =
        (decide ((shown : Int) ≠ struck.beam.row) &&
          (chip.objects.enabled.meets which.player &&
            (chip.objects.players.get which).graphic.toNat.testBit
              (7 - ringDistance first column / scale))) := by
  intro struck first scale hchip hin
  have hstruck : InFrame settings struck := h.apply (.access (.write cycles afterRead address value))
  obtain ⟨-, hposition, hmode, hmask⟩ := (waits_kept which _ _ _).draws hstruck hspares hchip
    (perform_waits h hstrobe afterRead value htiming)
  rw [hchip.row_eq hstruck hshown hcolumn] at hmask
  rw [covering_first hmask (s.strobePosition_lt _) (s.objects.sizeMode_lt which) hcolumn hin,
    decide_not]

/-- The copy at the new position of a player is left out on one row and drawn on all others.  The strobe does not
fall into a start delay, and nothing moves the player afterwards.  In the columns of the copy the player shows
nothing on the row that the strobe leaves the beam on, and on every other row the bit of its graphic that lies
there.  That row is the strobe's own unless the beam has got past its end, with the eleven clocks of a copy that
is finished first or the delay of an access before, or stands at its beginning with the line before not over. -/
theorem strobe_waits (htiming : s.strobeTiming which (clockOf cycles) ≠ .inDelay) (row : Nat)
    (hline : s.scanlines cycles = settings.yStart.toNat + row)
    (hrow : row + 1 < settings.height.toNat) :
    let struck := (s.perform (.write cycles afterRead address value)).2
    let first := (s.strobePosition (clockOf cycles)).toNat +
      firstStart (s.objects.sizeMode which).toNat
    let scale := playerScale (s.objects.sizeMode which).toNat
    let begins := clockOf cycles - s.lineClock cycles
    (∀ steps : List FrameStep, (∀ step ∈ steps, step.Spares (playerRegisters which)) →
        ∀ shown column chip, shown < settings.height.toNat → column < frameWidth →
          struck.Draws steps shown column chip → ringDistance first column < 8 * scale →
          (chip.objects.covering column).meets which.player =
            (decide ((shown : Int) ≠ struck.beam.row) &&
              (chip.objects.enabled.meets which.player &&
                (chip.objects.players.get which).graphic.toNat.testBit
                  (7 - ringDistance first column / scale)))) ∧
      struck.beam.drawnTo = max s.beam.drawnTo
        (clockOf cycles + (s.strobeTiming which (clockOf cycles)).lookAhead) ∧
      (struck.beam.row = row ↔
        (begins < struck.beam.drawnTo ∨ struck.beam.lineLeft ≠ 0) ∧
          (struck.beam.drawnTo < begins + lineClocks ∨
            struck.beam.drawnTo = begins + lineClocks ∧ struck.beam.lineLeft = 0)) := by
  intro struck first scale begins
  have hbegins : begins = s.beam.displayStart + lineClocks * row := by
    have hstart := h.displayStart_eq
    simp only [begins, scanlines, lineClock, Beam.scanline, Beam.lineClock, lineClocks] at *
    omega
  have hinside : begins ≤ clockOf cycles ∧ clockOf cycles + 11 ≤ s.beam.displayStop := by
    have hstop := h.displayStop_eq
    simp only [begins, lineClock, Beam.lineClock, lineClocks] at *
    omega
  have hdrawn : struck.beam.drawnTo = max s.beam.drawnTo
      (clockOf cycles + (s.strobeTiming which (clockOf cycles)).lookAhead) := by
    have hahead := (s.strobeTiming which (clockOf cycles)).lookAhead_le
    rw [drawnTo_perform h, reachOf_of_strobe hstrobe, Int.min_eq_left]
    omega
  refine ⟨fun steps hspares shown column chip hshown hcolumn ↦ ?_, hdrawn, ?_⟩
  · exact perform_covering h hstrobe afterRead value htiming hspares hshown hcolumn
  · have hstruck : InFrame settings struck := h.apply (.access (.write cycles afterRead address value))
    obtain ⟨-, hstart, -⟩ := Beam.stamps_eq_iff.mp
      (stamps_perform h (.write cycles afterRead address value))
    exact hstruck.inStep.row_eq_iff (hstart ▸ hbegins) (by omega)

end Strobe

/-- A strobe in the middle of line 0: the new copy waits there and is drawn on line 1. -/
theorem strobe_waits_of_clear :
    let s := ((Tia.new {}).started { yStart := 0, height := 4 }).play
      [.access (.write 1 true 0x1B 0xFF)]
    let struck := (s.perform (.write 40 true 0x10 0)).2
    let chip (row : Nat) := struck.catchUp (struck.beam.pixelClock row 57)
    s.strobeTiming .zero (clockOf 40) ≠ .inDelay ∧ s.scanlines 40 = 0 ∧
      ((chip 0).objects.covering 57).meets .player0 = false ∧
      ((chip 1).objects.covering 57).meets .player0 = true := by
  intro s struck chip
  have hframe := (started_inFrame (Tia.new {}) { yStart := 0, height := 4 }).play
    [.access (.write 1 true 0x1B 0xFF)]
  have htiming : s.strobeTiming .zero (clockOf 40) ≠ .inDelay := by decide +kernel
  have hline : s.scanlines 40 = 0 := by decide +kernel
  let steps : List FrameStep := [.access (.read 300 0 {} 0x02)]
  have hspares : ∀ step ∈ steps, step.Spares (playerRegisters .zero) :=
    List.forall_mem_singleton.mpr (FrameStep.spares_of_isRead rfl _)
  have hstrobe : names 0x10 Which.zero.resp := by decide
  obtain ⟨hcopy, -, -⟩ := strobe_waits hframe hstrobe true 0 htiming 0 hline (by decide)
  have hfirst : struck.Draws steps 0 57 (chip 0) := ⟨0, by decide +kernel, rfl⟩
  have hsecond : struck.Draws steps 1 57 (chip 1) := ⟨0, by decide +kernel, rfl⟩
  have hwaiting := hcopy steps hspares 0 57 _ (by decide) (by decide) hfirst (by decide +kernel)
  have hdrawn := hcopy steps hspares 1 57 _ (by decide) (by decide) hsecond (by decide +kernel)
  exact ⟨htiming, hline, hwaiting.trans (by decide +kernel), hdrawn.trans (by decide +kernel)⟩

/-- The line before has just ended, and the beam has not moved on: the new copy does not wait, and the strobe's own
line shows it. -/
theorem strobe_misses_line :
    let s := ((Tia.new {}).started { yStart := 0, height := 4 }).play
      [.access (.write 0 true 0x06 0x1E), .access (.write 1 true 0x1B 0xFF),
        .access (.write 40 true 0x10 0)]
    let struck := (s.perform (.write 76 true 0x10 0)).2
    let chip := struck.catchUp (struck.beam.pixelClock 1 3)
    s.strobeTiming .zero (clockOf 76) = .clear ∧ s.strobePosition (clockOf 76) = 3 ∧
      s.scanlines 76 = 1 ∧ s.lineClock 76 = 0 ∧
      struck.Draws [.access (.read 152 0 {} 0x02)] 1 3 chip ∧
      (chip.objects.covering 3).meets .player0 = true := by
  intro s struck chip
  have hframe := (started_inFrame (Tia.new {}) { yStart := 0, height := 4 }).play
    [.access (.write 0 true 0x06 0x1E), .access (.write 1 true 0x1B 0xFF),
      .access (.write 40 true 0x10 0)]
  have hstrobe : names 0x10 Which.zero.resp := by decide
  have htiming : s.strobeTiming .zero (clockOf 76) = .clear := by decide +kernel
  have hdraws : struck.Draws [.access (.read 152 0 {} 0x02)] 1 3 chip := ⟨0, by decide +kernel, rfl⟩
  have hspares : ∀ step ∈ [FrameStep.access (.read 152 0 {} 0x02)],
      step.Spares (playerRegisters .zero) :=
    List.forall_mem_singleton.mpr (FrameStep.spares_of_isRead rfl _)
  have hcovering := perform_covering hframe hstrobe true 0 (by rw [htiming]; decide) hspares
    (by decide) (by decide) hdraws (by decide +kernel)
  exact ⟨htiming, by decide +kernel, by decide +kernel, by decide +kernel, hdraws,
    hcovering.trans (by decide +kernel)⟩

/-! ## The copy that is finished -/

/-- Columns that are left, from this one on, of the copy that a player shows here. -/
def Objects.copyLeft (o : Objects) (which : Which) (column : Nat) : Nat :=
  let width := 8 * playerScale (o.sizeMode which).toNat
  match (o.copyStarts which).find? (ringDistance · column < width) with
  | none => 0
  | some start => width - ringDistance start column

theorem Objects.copyLeft_le (o : Objects) (which : Which) (column : Nat) :
    o.copyLeft which column ≤ 8 * playerScale (o.sizeMode which).toNat := by
  unfold copyLeft
  dsimp only
  split
  · exact Nat.zero_le _
  · exact Nat.sub_le _ _

section MidCopy

variable {settings : Settings} {s : Tia} (h : InFrame settings s) {which : Which} {cycles : Nat}
  {address : UInt16} (hstrobe : names address which.resp) (afterRead : Bool) (value : UInt8)
  {row x : Nat} (hrow : row < settings.height.toNat) (hx : x < frameWidth)
  (hnow : clockOf cycles = s.beam.pixelClock row x) (hbehind : s.beam.drawnTo ≤ clockOf cycles)
  (hmid : s.strobeTiming which (clockOf cycles) = .midCopy)

include h hmid

/-- A strobe within a copy moves the player to another column. -/
theorem strobePosition_ne_of_midCopy : s.strobePosition (clockOf cycles) ≠
    ((s.catchUp (clockOf cycles)).objects.players.get which).position := by
  have hsame : ((s.catchUp (clockOf cycles)).objects.players.get which).position =
      (s.objects.players.get which).position := by
    have hview := view_nothing_catchUp h.inStep.lineLeft_le (clockOf cycles)
    cases which
    · exact congrArg (·.objects.players.zero.position) hview
    · exact congrArg (·.objects.players.one.position) hview
  rw [hsame]
  intro hself
  rw [strobeTiming, ← hself, classify_self _ (s.strobePosition_lt _)] at hmid
  exact absurd hmid (by decide)

include hstrobe hrow hx hnow hbehind

/-- The beam draws eleven columns with the player as it was, and the others of its line with the player moved. -/
theorem perform_midCopy {steps : List FrameStep}
    (hspares : ∀ step ∈ steps, step.Spares (playerRegisters which)) {column : Nat} {chip : Tia}
    (hfrom : x ≤ column) (hcolumn : column < frameWidth)
    (hchip : s.Draws (.access (.write cycles afterRead address value) :: steps) row column chip) :
    (column < x + 11 → chip.objects = (s.catchUp (clockOf cycles)).objects) ∧
      (x + 11 ≤ column →
        (chip.objects.players.get which).position = s.strobePosition (clockOf cycles)) := by
  let caught := s.catchUp (clockOf cycles)
  have hstruck : InFrame settings (s.perform (.write cycles afterRead address value)).2 :=
    h.apply (.access (.write cycles afterRead address value))
  have hwindow := h.pixelClock_mem hrow hcolumn
  have hdistance : s.beam.pixelClock row column = clockOf cycles + (column - x : Nat) := by
    rw [hnow]
    simp only [Beam.pixelClock]
    omega
  have hdrawn : (s.perform (.write cycles afterRead address value)).2.beam.drawnTo =
      max s.beam.drawnTo (min (clockOf cycles + 11) s.beam.displayStop) := by
    rw [drawnTo_perform h, reachOf_of_strobe hstrobe, hmid]
    rfl
  rcases draws_cons hchip with ⟨-, hpassed, hfirst⟩ | hlater
  · have hpast : s.beam.pixelClock row column <
        (s.perform (.write cycles afterRead address value)).2.beam.drawnTo := by
      rw [← pixelClock_perform h (.write cycles afterRead address value)]
      exact hpassed
    refine ⟨fun _ ↦ ?_, fun hbeyond ↦ by omega⟩
    -- The beam stays on the row, so that the objects are as they were when it got to the strobe.
    have hchip' : chip = caught.catchUp (s.beam.pixelClock row column) := by
      rw [hfirst, catchUp_catchUp h.inStep.lineLeft_le, Int.max_eq_right (by omega)]
    have hcaught : InFrame settings caught := h.catchUp _
    have hrow' : caught.beam.row = row := by
      refine hcaught.inStep.row_of_pixel hx ?_
      have hnot : ¬ s.beam.HasPassed row x := by
        rw [Beam.HasPassed]
        omega
      rw [h.pixelClock_catchUp, ← h.drawnTo_catchUp_pixel hrow hx hnot, ← hnow]
    rw [hchip']
    refine hcaught.objects_catchUp ?_
    rw [← hchip', hrow', hchip.row_eq h hrow hcolumn]
  · have hnot := hlater.not_hasPassed hstruck hcolumn
    rw [Beam.HasPassed, pixelClock_perform h] at hnot
    have hwaits := perform_waits h hstrobe afterRead value (by rw [hmid]; decide)
    refine ⟨fun hwithin ↦ by omega, fun _ ↦ ?_⟩
    exact ((waits_kept which _ _ _).draws hstruck hspares hlater hwaits).position_eq

/-- A copy that is being drawn is finished if it is not too wide.  The beam is at column `x` of a row, and a player
is strobed there within one of its copies; nothing moves the player afterwards.  The columns of the row from `x` on
are drawn with the player as it was, up to ten columns further, and then with the player moved.  So the rest of
the copy is drawn as it was if and only if there are at most eleven columns left, of the copy or of the line,
which is always so in the modes with narrow copies. -/
theorem strobe_finishes_iff :
    let strobe : FrameStep := .access (.write cycles afterRead address value)
    let caught := s.catchUp (clockOf cycles)
    let left := caught.objects.copyLeft which x
    (∀ steps : List FrameStep, (∀ step ∈ steps, step.Spares (playerRegisters which)) →
        ∀ column chip, x ≤ column → column < frameWidth →
          s.Draws (strobe :: steps) row column chip →
          if column < x + 11 then chip.objects = caught.objects
          else (chip.objects.players.get which).position = s.strobePosition (clockOf cycles)) ∧
      s.strobePosition (clockOf cycles) ≠ (caught.objects.players.get which).position ∧
      ((∀ steps : List FrameStep, (∀ step ∈ steps, step.Spares (playerRegisters which)) →
          ∀ column chip, x ≤ column → column < x + left → column < frameWidth →
            s.Draws (strobe :: steps) row column chip →
            chip.objects.players.get which = caught.objects.players.get which) ↔
        left ≤ 11 ∨ frameWidth ≤ x + 11) ∧
      (playerScale (caught.objects.sizeMode which).toNat = 1 → left ≤ 11) := by
  intro strobe caught left
  have hlaw {steps : List FrameStep} (hspares : ∀ step ∈ steps, step.Spares (playerRegisters which))
      {column : Nat} {chip : Tia} (hfrom : x ≤ column) (hcolumn : column < frameWidth)
      (hchip : s.Draws (strobe :: steps) row column chip) :=
    perform_midCopy h hstrobe afterRead value hrow hx hnow hbehind hmid hspares hfrom hcolumn hchip
  have hmoved := strobePosition_ne_of_midCopy h hmid
  refine ⟨fun steps hspares column chip hfrom hcolumn hchip ↦ ?_, hmoved, ⟨fun hfinished ↦ ?_,
    fun hleft steps hspares column chip hfrom hcopy hcolumn hchip ↦ ?_⟩, fun hscale ↦ ?_⟩
  · obtain ⟨hbefore, hafter⟩ := hlaw hspares hfrom hcolumn hchip
    split
    · next hlt => exact hbefore hlt
    · next hge => exact hafter (Nat.le_of_not_lt hge)
  · by_contra hcut
    obtain ⟨hlong, hinside⟩ := not_or.mp hcut
    have hnot : ¬ s.beam.HasPassed row (x + 11) := by
      simp only [Beam.HasPassed, Beam.pixelClock] at *
      omega
    -- A late read makes the beam draw the twelfth column, and there the player has moved.
    obtain ⟨request, hread, chip, hchip⟩ :=
      h.exists_draws_read [strobe] hrow (Nat.lt_of_not_le hinside) hnot
    have hspares : ∀ step ∈ [FrameStep.access request], step.Spares (playerRegisters which) :=
      List.forall_mem_singleton.mpr (FrameStep.spares_of_isRead hread _)
    have hsame := hfinished _ hspares (x + 11) chip (Nat.le_add_right x 11) (by omega) (by omega) hchip
    have hposition := (hlaw hspares (Nat.le_add_right x 11) (by omega) hchip).2 (Nat.le_refl _)
    exact hmoved (hposition.symm.trans (congrArg Player.position hsame))
  · exact congrArg (·.players.get which) ((hlaw hspares hfrom hcolumn hchip).1 (by omega))
  · have hwidth := caught.objects.copyLeft_le which x
    omega

end MidCopy

/-- A narrow copy with four columns left is finished. -/
theorem strobe_finishes_iff_of_narrow :
    let s := ((Tia.new {}).started { yStart := 0, height := 4 }).play
      [.access (.write 1 true 0x1B 0xFF), .access (.write 5 true 0x10 0)]
    let strobe : FrameStep := .access (.write 101 true 0x10 0)
    let caught := s.catchUp (clockOf 101)
    s.strobeTiming .zero (clockOf 101) = .midCopy ∧ caught.objects.copyLeft .zero 7 = 4 ∧
      ∀ column chip, 7 ≤ column → column < 11 →
        s.Draws [strobe, .access (.read 152 0 {} 0x02)] 1 column chip →
        chip.objects.players.zero = caught.objects.players.zero := by
  intro s strobe caught
  have hframe := (started_inFrame (Tia.new {}) { yStart := 0, height := 4 }).play
    [.access (.write 1 true 0x1B 0xFF), .access (.write 5 true 0x10 0)]
  have hstrobe : names 0x10 Which.zero.resp := by decide
  have hmid : s.strobeTiming .zero (clockOf 101) = .midCopy := by decide +kernel
  have hleft : caught.objects.copyLeft .zero 7 = 4 := by decide +kernel
  have hspares : ∀ step ∈ [FrameStep.access (.read 152 0 {} 0x02)],
      step.Spares (playerRegisters .zero) :=
    List.forall_mem_singleton.mpr (FrameStep.spares_of_isRead rfl _)
  have hnow : clockOf 101 = s.beam.pixelClock 1 7 := by decide +kernel
  obtain ⟨-, -, hfinished, -⟩ := strobe_finishes_iff hframe hstrobe true 0 (by decide) (by decide)
    hnow (by decide +kernel) hmid
  refine ⟨hmid, hleft, fun column chip hfrom hto hchip ↦ ?_⟩
  have hcolumn : column < frameWidth := Nat.lt_trans hto (by decide)
  refine hfinished.mpr (.inl ?_) _ hspares column chip hfrom ?_ hcolumn hchip
  · exact hleft.trans_le (by decide)
  · rwa [hleft]

/-- Of a copy of thirty-two columns with twenty-nine left only eleven are drawn: in the twelfth the player is
elsewhere and shows nothing. -/
theorem strobe_cuts_copy :
    let s := ((Tia.new {}).started { yStart := 0, height := 4 }).play
      [.access (.write 0 true 0x06 0x1E), .access (.write 1 true 0x04 0x07),
        .access (.write 2 true 0x1B 0xFF), .access (.write 5 true 0x10 0)]
    let strobe : FrameStep := .access (.write 101 true 0x10 0)
    let caught := s.catchUp (clockOf 101)
    let chip := (strobe.apply s).catchUp ((strobe.apply s).beam.pixelClock 1 18)
    s.strobeTiming .zero (clockOf 101) = .midCopy ∧ caught.beam.drawnTo = s.beam.pixelClock 1 7 ∧
      caught.objects.copyLeft .zero 7 = 29 ∧
      s.Draws [strobe, .access (.read 152 0 {} 0x02)] 1 18 chip ∧
      caught.objects.players.zero.position = 3 ∧ chip.objects.players.zero.position = 12 ∧
      (chip.objects.covering 18).meets .player0 = false := by
  intro s strobe caught chip
  have hframe := (started_inFrame (Tia.new {}) { yStart := 0, height := 4 }).play
    [.access (.write 0 true 0x06 0x1E), .access (.write 1 true 0x04 0x07),
      .access (.write 2 true 0x1B 0xFF), .access (.write 5 true 0x10 0)]
  have hstrobe : names 0x10 Which.zero.resp := by decide
  have hmid : s.strobeTiming .zero (clockOf 101) = .midCopy := by decide +kernel
  have hdraws : (strobe.apply s).Draws [.access (.read 152 0 {} 0x02)] 1 18 chip :=
    ⟨0, by decide +kernel, rfl⟩
  have hspares : ∀ step ∈ [FrameStep.access (.read 152 0 {} 0x02)],
      step.Spares (playerRegisters .zero) :=
    List.forall_mem_singleton.mpr (FrameStep.spares_of_isRead rfl _)
  have hcovering := perform_covering hframe hstrobe true 0 (by rw [hmid]; decide) hspares
    (by decide) (by decide) hdraws (by decide +kernel)
  exact ⟨hmid, by decide +kernel, by decide +kernel, hdraws.cons strobe, by decide +kernel,
    by decide +kernel, hcovering.trans (by decide +kernel)⟩

end Vcs.Tia
