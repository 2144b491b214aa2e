import Vcs.Proofs.Tia.MaskGeometry
import Vcs.Tia.Strobe

/-!
# Lookups

What the tables answer, in terms of the ring alone.  A mask is built for a position and asked for a column, and
the answer depends on the distance from the one to the other: the ball and the missiles cover runs of columns,
a player shows one bit of its graphic or none.  The timing of a strobe depends in the same way on the distance
from the old position to the new one, the columns in which a copy is shown having been laid over those of its
start delay.

The main statement, `lookups_exact`, gives every answer for every pair of columns, and with them the timing of a
strobe that does not move the player.
-/

namespace Vcs.Tia

/-- Without the copy at the position itself the others remain. -/
theorem mem_tail_copyOffsets {mode offset : Nat} :
    offset ∈ (copyOffsets mode).tail ↔ offset ∈ copyOffsets mode ∧ offset ≠ 0 := by
  unfold copyOffsets
  split <;> simp <;> omega

theorem copyOffsets_le {mode offset : Nat} (h : offset ∈ copyOffsets mode) : offset ≤ 64 := by
  unfold copyOffsets at h
  split at h <;> simp at h <;> omega

theorem zero_mem_copyOffsets (mode : Nat) : 0 ∈ copyOffsets mode := by
  unfold copyOffsets
  split <;> simp

/-- A player shows a bit of its graphic, counted from the left, at a distance from its position.  Wide players
start one column late and have no copies. -/
def ShowsBit (skipFirst : Bool) (mode distance : Nat) (bit : Fin 8) : Prop :=
  match mode % 8 with
  | 5 => skipFirst = false ∧ ringDistance 1 distance / 2 = bit
  | 7 => skipFirst = false ∧ ringDistance 1 distance / 4 = bit
  | _ => ∃ offset ∈ copyOffsets mode,
      (skipFirst = true → offset ≠ 0) ∧ ringDistance offset distance = bit

/-- Columns in which a copy of a player is shown. -/
def shownColumns (mode : Nat) : Nat :=
  match mode % 8 with
  | 5 => 16
  | 7 => 32
  | _ => 8

theorem shownColumns_eq (mode : Nat) : shownColumns mode = 8 * playerScale mode := by
  unfold shownColumns playerScale
  split <;> simp_all

section

variable {skipFirst : Bool} {mode column : Nat}

theorem mem_playerStarts_of_narrow {start : Nat} (hscale : playerScale mode = 1) :
    start ∈ playerStarts skipFirst mode ↔
      start ∈ copyOffsets mode ∧ (skipFirst = true → start ≠ 0) := by
  rw [playerStarts, if_pos hscale]
  cases skipFirst
  · simp
  · simp [mem_tail_copyOffsets]

theorem mem_playerStarts_of_wide {start : Nat} (hscale : playerScale mode ≠ 1) :
    start ∈ playerStarts skipFirst mode ↔ skipFirst = false ∧ start = 1 := by
  rw [playerStarts, if_neg hscale]
  cases skipFirst <;> simp

theorem showsBit_iff (distance : Nat) (bit : Fin 8) :
    ShowsBit skipFirst mode distance bit ↔ ∃ start ∈ playerStarts skipFirst mode,
      ringDistance start distance / playerScale mode = bit := by
  unfold ShowsBit
  split
  next hmode =>
    have hscale : playerScale mode = 2 := by simp [playerScale, hmode]
    simp [mem_playerStarts_of_wide, hscale]
  next hmode =>
    have hscale : playerScale mode = 4 := by simp [playerScale, hmode]
    simp [mem_playerStarts_of_wide, hscale]
  next hdouble hquadruple =>
    have hscale : playerScale mode = 1 := by
      unfold playerScale
      split <;> simp_all
    simp [mem_playerStarts_of_narrow hscale, hscale, and_assoc]

theorem playerScale_pos (mode : Nat) : 0 < playerScale mode := by
  unfold playerScale
  split <;> decide

/-- A copy is met within its width exactly where one of its eight bits is. -/
theorem exists_bit_iff (into : Nat) :
    (∃ bit : Fin 8, into / playerScale mode = bit) ↔ into < 8 * playerScale mode := by
  rw [← Nat.div_lt_iff_lt_mul (playerScale_pos mode)]
  constructor
  · rintro ⟨bit, hbit⟩
    exact hbit ▸ bit.isLt
  · intro hlt
    exact ⟨⟨_, hlt⟩, rfl⟩

theorem shiftedBit_inj : ∀ first second : Fin 8,
    (0x80 : UInt8) >>> UInt8.ofNat first = 0x80 >>> UInt8.ofNat second ↔ first = second := by
  decide

theorem shiftedBit_ne_zero : ∀ bit : Fin 8, (0x80 : UInt8) >>> UInt8.ofNat bit ≠ 0 := by
  decide

theorem graphicBit_of_bit {scale into : Nat} {bit : Fin 8} (h : into / scale = bit) :
    graphicBit scale into = 0x80 >>> UInt8.ofNat bit := by
  rw [graphicBit, h]

/-- The cell of a column in which a bit is shown. -/
theorem getElem_playerRow_of_showsBit {bit : Fin 8} (hcolumn : column < columns)
    (h : ShowsBit skipFirst mode column bit) :
    (playerRow skipFirst mode)[column] = 0x80 >>> UInt8.ofNat bit := by
  obtain ⟨start, hstart, hbit⟩ := (showsBit_iff column bit).mp h
  have hin := (exists_bit_iff _).mp ⟨bit, hbit⟩
  rw [getElem_playerRow hstart hin hcolumn, graphicBit_of_bit hbit]

/-- The cell of a column in which no bit is shown. -/
theorem getElem_playerRow_of_blank (hcolumn : column < columns)
    (h : ∀ bit, ¬ShowsBit skipFirst mode column bit) : (playerRow skipFirst mode)[column] = 0 := by
  refine getElem_playerRow_of_none ?_ hcolumn
  rintro ⟨start, hstart, hin⟩
  obtain ⟨bit, hbit⟩ := (exists_bit_iff _).mpr hin
  exact h bit ((showsBit_iff column bit).mpr ⟨start, hstart, hbit⟩)

theorem getElem_playerRow_eq_bit_iff (hcolumn : column < columns) (bit : Fin 8) :
    (playerRow skipFirst mode)[column] = 0x80 >>> UInt8.ofNat bit ↔
      ShowsBit skipFirst mode column bit := by
  constructor
  · intro hcell
    by_cases hshown : ∃ other, ShowsBit skipFirst mode column other
    · obtain ⟨other, hother⟩ := hshown
      have hsame : other = bit :=
        (shiftedBit_inj other bit).mp ((getElem_playerRow_of_showsBit hcolumn hother).symm.trans hcell)
      exact hsame ▸ hother
    · have hzero := getElem_playerRow_of_blank hcolumn (not_exists.mp hshown)
      exact absurd (hcell.symm.trans hzero) (shiftedBit_ne_zero bit)
  · exact getElem_playerRow_of_showsBit hcolumn

theorem getElem_playerRow_eq_zero_iff (hcolumn : column < columns) :
    (playerRow skipFirst mode)[column] = 0 ↔ ∀ bit, ¬ShowsBit skipFirst mode column bit := by
  constructor
  · intro hcell bit hshown
    exact shiftedBit_ne_zero bit ((getElem_playerRow_of_showsBit hcolumn hshown).symm.trans hcell)
  · exact getElem_playerRow_of_blank hcolumn

theorem showsBit_mod (distance : Nat) (bit : Fin 8) :
    ShowsBit skipFirst (mode % 8) distance bit ↔ ShowsBit skipFirst mode distance bit := by
  simp only [ShowsBit, copyOffsets_mod, Nat.mod_mod]

end

namespace StrobeTiming

/-- The second pass has laid the shown columns over the delays of the first. -/
theorem getElem_row (mode old : Nat) {column : Nat} (hcolumn : column < columns) :
    (row mode old)[column] =
      if ∃ offset ∈ copyOffsets mode, ringDistance (old + offset + 4) column < shownColumns mode then
        midCopy
      else if ∃ offset ∈ copyOffsets mode, ringDistance (old + offset) column < 4 then inDelay
      else clear := by
  have hdelay : startDelay ≤ columns := by decide
  simp only [row]
  rw [Row.getElem_paintAll _ _ _ (playerWidth_le mode) hcolumn (fun _ _ _ ↦ rfl),
    Row.getElem_paintAll _ _ _ hdelay hcolumn (fun _ _ _ ↦ rfl), Row.getElem_blank clear hcolumn,
    shownColumns_eq]
  simp only [List.mem_map, exists_exists_and_eq_and, startDelay]

/-- The timing by the distance from the old position to the new one. -/
theorem classify_eq (mode : UInt8) {old new : UInt8} (hnew : new.toNat < columns) :
    classify mode old new =
      if ∃ offset ∈ copyOffsets mode.toNat,
          ringDistance (offset + 4) (ringDistance old.toNat new.toNat) < shownColumns mode.toNat then
        midCopy
      else if ∃ offset ∈ copyOffsets mode.toNat,
          ringDistance offset (ringDistance old.toNat new.toNat) < 4 then inDelay
      else clear := by
  have hcell : classify mode old new = (row mode.toNat old.toNat)[new.toNat] := by
    rw [classify, Array.getD_eq_getD_getElem?, Array.getElem?_eq_getElem (by simpa using hnew),
      Option.getD_some, Vector.getElem_toArray]
  rw [hcell, getElem_row _ _ hnew]
  simp only [ringDistance_add, Nat.add_assoc]

end StrobeTiming

/-- What the tables answer for a column at a distance from a position.  A strobe that moves a player by this
distance is timed by the copies at the old position. -/
structure LookupsAt (position column : UInt8) (distance : Nat) : Prop where
  ball : ∀ size : UInt8,
    (Mask.ball position size).coversBall column.toNat ↔ distance < 2 ^ (size.toNat % 4)
  missile : ∀ mode size : UInt8,
    (Mask.missile position mode size).coversMissile column.toNat ↔
      ∃ offset ∈ copyOffsets mode.toNat, ringDistance offset distance < 2 ^ (size.toNat % 4)
  playerBit : ∀ (skipFirst : Bool) (mode : UInt8) (bit : Fin 8),
    (Mask.player position skipFirst mode).playerBit column.toNat = 0x80 >>> UInt8.ofNat bit ↔
      ShowsBit skipFirst mode.toNat distance bit
  playerBlank : ∀ (skipFirst : Bool) (mode : UInt8),
    (Mask.player position skipFirst mode).playerBit column.toNat = 0 ↔
      ∀ bit, ¬ShowsBit skipFirst mode.toNat distance bit
  strobe : ∀ mode : UInt8,
    StrobeTiming.classify mode position column =
      if ∃ offset ∈ copyOffsets mode.toNat,
          ringDistance (offset + 4) distance < shownColumns mode.toNat then .midCopy
      else if ∃ offset ∈ copyOffsets mode.toNat, ringDistance offset distance < 4 then .inDelay
      else .clear

section

variable {position column : UInt8} (hposition : position.toNat < columns) (hcolumn : column.toNat < columns)

include hposition hcolumn

theorem ball_coversBall_iff (size : UInt8) :
    (Mask.ball position size).coversBall column.toNat ↔
      ringDistance position.toNat column.toNat < 2 ^ (size.toNat % 4) := by
  have hshows : (Mask.ball position size).Shows position (size &&& 3) := .inl rfl
  rw [hshows.coversBall_iff hposition (Mask.ballShape_lt size) hcolumn, Mask.toNat_ballShape]

theorem missile_coversMissile_iff (mode size : UInt8) :
    (Mask.missile position mode size).coversMissile column.toNat ↔
      ∃ offset ∈ copyOffsets mode.toNat,
        ringDistance offset (ringDistance position.toNat column.toNat) < 2 ^ (size.toNat % 4) := by
  have hshows : (Mask.missile position mode size).Shows position ((mode &&& 7) * 4 + (size &&& 3)) :=
    .inl rfl
  have hmode : (mode.toNat % 8 * 4 + size.toNat % 4) / 4 = mode.toNat % 8 := by omega
  have hsize : (mode.toNat % 8 * 4 + size.toNat % 4) % 4 = size.toNat % 4 := by omega
  rw [hshows.coversMissile_iff hposition (Mask.missileShape_lt mode size) hcolumn,
    Mask.toNat_missileShape, hmode, hsize, copyOffsets_mod]

theorem player_playerBit_eq (skipFirst : Bool) (mode : UInt8) :
    (Mask.player position skipFirst mode).playerBit column.toNat =
      (playerRow skipFirst (mode.toNat % 8)).along position.toNat column.toNat := by
  have hshows : (Mask.player position skipFirst mode).Shows position
      ((if skipFirst then 8 else 0) + (mode &&& 7)) := .inl rfl
  have hskip : decide (8 ≤ (if skipFirst then 8 else 0) + mode.toNat % 8) = skipFirst := by
    have hmode : ¬8 ≤ 0 + mode.toNat % 8 := by omega
    cases skipFirst
    · exact decide_eq_false hmode
    · exact decide_eq_true (Nat.le_add_right 8 _)
  have hmode : ((if skipFirst then 8 else 0) + mode.toNat % 8) % 8 = mode.toNat % 8 := by
    split <;> omega
  rw [hshows.playerBit_eq hposition (Mask.playerShape_lt skipFirst mode) hcolumn,
    Mask.toNat_playerShape, hskip, hmode]

theorem lookupsAt_ringDistance :
    LookupsAt position column (ringDistance position.toNat column.toNat) where
  ball := ball_coversBall_iff hposition hcolumn
  missile := missile_coversMissile_iff hposition hcolumn
  playerBit skipFirst mode bit := by
    rw [player_playerBit_eq hposition hcolumn, Row.along_eq _ (ringDistance_lt _ _),
      getElem_playerRow_eq_bit_iff, showsBit_mod]
  playerBlank skipFirst mode := by
    rw [player_playerBit_eq hposition hcolumn, Row.along_eq _ (ringDistance_lt _ _),
      getElem_playerRow_eq_zero_iff]
    simp only [showsBit_mod]
  strobe mode := StrobeTiming.classify_eq mode hcolumn

end

theorem ringDistance_self (column : Nat) : ringDistance column column = 0 := by
  simp [ringDistance]

/-- A strobe that does not move the player falls within the start delay of the copy there. -/
theorem classify_self (mode : UInt8) {position : UInt8} (hposition : position.toNat < columns) :
    StrobeTiming.classify mode position position = .inDelay := by
  have hshown : ¬∃ offset ∈ copyOffsets mode.toNat,
      ringDistance (offset + 4) 0 < shownColumns mode.toNat := by
    rintro ⟨offset, hoffset, hlt⟩
    have hle := copyOffsets_le hoffset
    have hwidth : shownColumns mode.toNat ≤ 32 := by
      have := playerScale_le mode.toNat
      rw [shownColumns_eq]
      omega
    simp only [ringDistance, columns] at hlt
    omega
  have hdelay : ∃ offset ∈ copyOffsets mode.toNat, ringDistance offset 0 < 4 :=
    ⟨0, zero_mem_copyOffsets _, by simp [ringDistance_self]⟩
  rw [StrobeTiming.classify_eq mode hposition, ringDistance_self, if_neg hshown, if_pos hdelay]

/-- For every position and every column, all masks and strobe timings are those of the ring distance between
them; and a strobe at the current position is always within the start delay. -/
theorem lookups_exact (position column : Fin columns) :
    LookupsAt (UInt8.ofNat position) (UInt8.ofNat column)
        ((((column.val : Int) - position.val) % 160).toNat) ∧
      ∀ mode : UInt8,
        StrobeTiming.classify mode (UInt8.ofNat position) (UInt8.ofNat position) = .inDelay := by
  have toNat_ofNat (cell : Fin columns) : (UInt8.ofNat cell).toNat = cell.val :=
    UInt8.toNat_ofNat_of_lt' (Nat.lt_trans cell.isLt (by decide))
  have hlt (cell : Fin columns) : (UInt8.ofNat cell).toNat < columns := by
    rw [toNat_ofNat]
    exact cell.isLt
  have hlookups := lookupsAt_ringDistance (hlt position) (hlt column)
  rw [toNat_ofNat, toNat_ofNat] at hlookups
  exact ⟨hlookups, fun mode ↦ classify_self mode (hlt position)⟩

end Vcs.Tia
