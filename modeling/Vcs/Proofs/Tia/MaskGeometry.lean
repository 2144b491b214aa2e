import Mathlib.Tactic.IntervalCases
import Vcs.Proofs.Bytes
import Vcs.Tia.Mask

/-!
# Geometry of the Masks

A line closes to a ring of 160 columns, and what an object covers is known by the distance from its position,
going right along the ring.  The tables keep every row twice over in four alignments, and a descriptor finds
its cell by one addition; here the cell is shown to be that of the row at this distance.  So a ball covers
the columns at a distance below its width, a missile those at such a distance from one of its copies, and a
player shows the bit of its graphic that lies as many columns into the copy, each bit as wide as the size mode
makes it.
-/

namespace Vcs.Tia

/-- Columns from one column to another, going right along the ring. -/
def ringDistance (origin column : Nat) : Nat :=
  (((column : Int) - origin) % columns).toNat

theorem ringDistance_lt (origin column : Nat) : ringDistance origin column < columns := by
  simp only [ringDistance, columns]
  omega

theorem ringDistance_zero {column : Nat} (h : column < columns) : ringDistance 0 column = column := by
  simp only [ringDistance, columns] at *
  omega

theorem ringDistance_add (origin offset column : Nat) :
    ringDistance offset (ringDistance origin column) = ringDistance (origin + offset) column := by
  simp only [ringDistance, columns]
  omega

namespace Row

variable {α : Type} (row : Row α)

theorem getElem_blank (cell : α) {column : Nat} (hcolumn : column < columns) :
    (blank cell)[column] = cell :=
  Vector.getElem_replicate hcolumn

/-- The cell at the distance of one column from another. -/
def along (origin column : Nat) : α :=
  row.get ⟨ringDistance origin column, ringDistance_lt origin column⟩

theorem along_eq {origin column : Nat} (h : ringDistance origin column < columns) :
    row.along origin column = row[ringDistance origin column] := rfl

theorem getElem_paint (start : Nat) (cell : Nat → α) {length : Nat} (hlength : length ≤ columns)
    {column : Nat} (hcolumn : column < columns) :
    (row.paint start cell length)[column] =
      if ringDistance start column < length then cell (ringDistance start column)
      else row[column] := by
  induction length with
  | zero => rfl
  | succ length ih =>
    have hhere : (start + length) % columns = column ↔ ringDistance start column = length := by
      have hring : column < 160 := hcolumn
      simp only [ringDistance, columns] at hlength ⊢
      omega
    rw [paint, Vector.getElem_set, ih (by omega)]
    by_cases hlast : ringDistance start column = length
    · rw [if_pos (hhere.mpr hlast), if_pos (by omega), hlast]
    · have hiff : ringDistance start column < length + 1 ↔ ringDistance start column < length := by
        omega
      simp only [if_neg (hhere.not.mpr hlast), hiff]

/-- Runs that agree where they meet may be laid in any order. -/
theorem getElem_paintAll (starts : List Nat) (cell : Nat → α) {length : Nat}
    (hlength : length ≤ columns) {column : Nat} (hcolumn : column < columns) {value : α}
    (hvalue : ∀ start ∈ starts, ringDistance start column < length →
      cell (ringDistance start column) = value) :
    (row.paintAll starts cell length)[column] =
      if ∃ start ∈ starts, ringDistance start column < length then value else row[column] := by
  induction starts generalizing row with
  | nil => simp [paintAll]
  | cons start rest ih =>
    have hrest := ih (row.paint start cell length) fun later hmem ↦
      hvalue later (List.mem_cons_of_mem _ hmem)
    have hfirst := hvalue start List.mem_cons_self
    have hlater : row.paintAll (start :: rest) cell length =
        (row.paint start cell length).paintAll rest cell length := rfl
    rw [hlater, hrest, row.getElem_paint start cell hlength hcolumn]
    by_cases hcover : ringDistance start column < length
    · simp [hcover, hfirst hcover]
    · simp [hcover]

end Row

theorem copyOffsets_mod (mode : Nat) : copyOffsets (mode % 8) = copyOffsets mode := by
  simp only [copyOffsets, Nat.mod_mod]

/-- Copies of a player do not meet. -/
theorem copyOffsets_apart {mode first second column : Nat} (hfirst : first ∈ copyOffsets mode)
    (hsecond : second ∈ copyOffsets mode) (hin : ringDistance first column < 8)
    (hother : ringDistance second column < 8) : first = second := by
  simp only [ringDistance, columns] at hin hother
  unfold copyOffsets at hfirst hsecond
  split at hfirst <;> simp_all <;> omega

theorem getElem_ballRow {size : Nat} (hsize : size < 4) {column : Nat} (hcolumn : column < columns) :
    (ballRow size)[column] = decide (column < 2 ^ size) := by
  have hwidth : 1 <<< size ≤ columns := by
    interval_cases size <;> decide
  rw [ballRow, Row.getElem_paint _ 0 _ hwidth hcolumn, ringDistance_zero hcolumn, Nat.one_shiftLeft,
    Row.getElem_blank false hcolumn]
  simp

theorem getElem_missileRow (mode : Nat) {size : Nat} (hsize : size < 4) {column : Nat}
    (hcolumn : column < columns) :
    (missileRow mode size)[column] =
      decide (∃ offset ∈ copyOffsets mode, ringDistance offset column < 2 ^ size) := by
  have hwidth : 1 <<< size ≤ columns := by
    interval_cases size <;> decide
  rw [missileRow, Row.getElem_paintAll _ _ _ hwidth hcolumn (fun _ _ _ ↦ rfl), Nat.one_shiftLeft,
    Row.getElem_blank false hcolumn]
  simp

/-- Where the copies of a player start, at a distance from its position. -/
def playerStarts (skipFirst : Bool) (mode : Nat) : List Nat :=
  if playerScale mode = 1 then if skipFirst then (copyOffsets mode).tail else copyOffsets mode
  else if skipFirst then []
  else [1]

theorem playerScale_le (mode : Nat) : playerScale mode ≤ 4 := by
  unfold playerScale
  split <;> decide

theorem playerRow_eq (skipFirst : Bool) (mode : Nat) :
    playerRow skipFirst mode = (Row.blank 0).paintAll (playerStarts skipFirst mode)
      (graphicBit (playerScale mode)) (8 * playerScale mode) := by
  by_cases hscale : playerScale mode = 1
  · simp only [playerRow, playerStarts, hscale, if_true, Nat.mul_one]
  · simp only [playerRow, playerStarts, if_neg hscale]
    split <;> rfl

/-- At most one copy of a player shows in a column. -/
theorem playerStarts_apart {skipFirst : Bool} {mode first second column : Nat}
    (hfirst : first ∈ playerStarts skipFirst mode) (hsecond : second ∈ playerStarts skipFirst mode)
    (hin : ringDistance first column < 8 * playerScale mode)
    (hother : ringDistance second column < 8 * playerScale mode) : first = second := by
  by_cases hscale : playerScale mode = 1
  · have hcopy {start : Nat} (hmem : start ∈ playerStarts skipFirst mode) :
        start ∈ copyOffsets mode := by
      rw [playerStarts, if_pos hscale] at hmem
      split at hmem
      · exact List.mem_of_mem_tail hmem
      · exact hmem
    rw [hscale] at hin hother
    exact copyOffsets_apart (hcopy hfirst) (hcopy hsecond) hin hother
  · rw [playerStarts, if_neg hscale] at hfirst hsecond
    split at hfirst
    · exact absurd hfirst List.not_mem_nil
    · next hshown =>
      rw [if_neg hshown] at hsecond
      exact (List.mem_singleton.mp hfirst).trans (List.mem_singleton.mp hsecond).symm

/-- The bit of a graphic that a player shows some columns into a copy. -/
theorem graphicBit_shown (graphic : UInt8) {scale into : Nat} (h : into < 8 * scale) :
    (graphic &&& graphicBit scale into != 0) = graphic.toNat.testBit (7 - into / scale) := by
  have hbits : ∀ bit : Fin 8, (graphic &&& 0x80 >>> UInt8.ofNat bit != 0) =
      graphic.toNat.testBit (7 - bit) :=
    forall_byte (p := fun graphic ↦ ∀ bit : Fin 8, (graphic &&& 0x80 >>> UInt8.ofNat bit != 0) =
      graphic.toNat.testBit (7 - bit)) (by decide +kernel) graphic
  exact hbits ⟨into / scale, Nat.div_lt_of_lt_mul (Nat.mul_comm 8 scale ▸ h)⟩

section PlayerRow

variable {skipFirst : Bool} {mode column : Nat}

theorem playerWidth_le (mode : Nat) : 8 * playerScale mode ≤ columns := by
  have := playerScale_le mode
  simp only [columns]
  omega

/-- In the column of a copy a player shows the bit that lies there, no other copy showing in it. -/
theorem getElem_playerRow {start : Nat} (hstart : start ∈ playerStarts skipFirst mode)
    (hin : ringDistance start column < 8 * playerScale mode) (hcolumn : column < columns) :
    (playerRow skipFirst mode)[column] =
      graphicBit (playerScale mode) (ringDistance start column) := by
  have honly (other : Nat) (hother : other ∈ playerStarts skipFirst mode)
      (hreached : ringDistance other column < 8 * playerScale mode) :
      graphicBit (playerScale mode) (ringDistance other column) =
        graphicBit (playerScale mode) (ringDistance start column) := by
    rw [playerStarts_apart hother hstart hreached hin]
  simp only [playerRow_eq]
  rw [Row.getElem_paintAll _ _ _ (playerWidth_le mode) hcolumn honly, if_pos ⟨start, hstart, hin⟩]

theorem getElem_playerRow_of_none
    (hnone : ¬∃ start ∈ playerStarts skipFirst mode,
      ringDistance start column < 8 * playerScale mode) (hcolumn : column < columns) :
    (playerRow skipFirst mode)[column] = 0 := by
  have habsent (start : Nat) (hstart : start ∈ playerStarts skipFirst mode)
      (hin : ringDistance start column < 8 * playerScale mode) :
      graphicBit (playerScale mode) (ringDistance start column) = 0 :=
    absurd ⟨start, hstart, hin⟩ hnone
  simp only [playerRow_eq]
  rw [Row.getElem_paintAll _ _ _ (playerWidth_le mode) hcolumn habsent, if_neg hnone,
    Row.getElem_blank 0 hcolumn]

/-- A player shows the bit of its graphic that lies in the column of one of its copies. -/
theorem playerRow_shows (graphic : UInt8) (skipFirst : Bool) (mode : Nat) {column : Nat}
    (hcolumn : column < columns) :
    (graphic &&& (playerRow skipFirst mode)[column] != 0) =
      (playerStarts skipFirst mode).any fun start ↦
        ringDistance start column < 8 * playerScale mode &&
          graphic.toNat.testBit (7 - ringDistance start column / playerScale mode) := by
  by_cases hshown : ∃ start ∈ playerStarts skipFirst mode,
      ringDistance start column < 8 * playerScale mode
  · obtain ⟨start, hstart, hin⟩ := hshown
    rw [getElem_playerRow hstart hin hcolumn, graphicBit_shown _ hin, Bool.eq_iff_iff, List.any_eq_true]
    simp only [Bool.and_eq_true, decide_eq_true_eq]
    constructor
    · intro hset
      exact ⟨start, hstart, hin, hset⟩
    · rintro ⟨other, hother, hreached, hset⟩
      rwa [playerStarts_apart hother hstart hreached hin] at hset
  · rw [getElem_playerRow_of_none hshown hcolumn, UInt8.and_zero, bne_self_eq_false, eq_comm,
      List.any_eq_false]
    intro other hother hboth
    rw [Bool.and_eq_true, decide_eq_true_eq] at hboth
    exact hshown ⟨other, hother, hboth.1⟩

end PlayerRow

/-! ## Tables -/

namespace ShapeTable

variable {α : Type} {shapes : Nat} (row : Fin shapes → Row α)

@[simp]
theorem size_build : (build shapes row).cells.size = 4 * shapes * rowCells := by
  simp [build]

theorem getElem?_build {line offset : Nat} (hline : line < 4 * shapes) (hoffset : offset < rowCells)
    (hshape : line % shapes < shapes) :
    (build shapes row).cells[line * rowCells + offset]? =
      some ((row ⟨line % shapes, hshape⟩).get
        ⟨(offset + columns - line / shapes) % columns, Nat.mod_lt _ (by decide)⟩) := by
  have hquotient : (line * rowCells + offset) / rowCells = line := by
    simp only [rowCells, columns] at *
    omega
  have hremainder : (line * rowCells + offset) % rowCells = offset := by
    simp only [rowCells, columns] at *
    omega
  have hindex : line * rowCells + offset < 4 * shapes * rowCells := by
    simp only [rowCells, columns] at *
    omega
  simp only [build, Array.getElem?_ofFn, hindex, dif_pos, hquotient, hremainder,
    Vector.getElem_ofFn]
  rfl

end ShapeTable

namespace Mask

/-- The descriptor selects a row of a table and stays on it. -/
structure Within (mask : Mask) (shapes : Nat) : Prop where
  alignment_lt : mask.alignment.toNat < 4
  shape_lt : mask.shape.toNat < shapes
  offset_le : mask.offset.toNat ≤ columns

/-- The descriptor shows a shape at a position.  The one an object has until it is first placed shows the first
shape at position zero. -/
def Shows (mask : Mask) (position shape : UInt8) : Prop :=
  mask = .place position shape ∨ mask = {} ∧ position = 0 ∧ shape = 0

theorem toNat_alignment (position : UInt8) : (position &&& 0x03).toNat = position.toNat % 4 :=
  forall_byte (p := fun position ↦ (position &&& 0x03).toNat = position.toNat % 4) (by decide +kernel)
    position

theorem toNat_block (position : UInt8) :
    (position &&& 0xFC).toNat = position.toNat - position.toNat % 4 :=
  forall_byte
    (p := fun position ↦ (position &&& 0xFC).toNat = position.toNat - position.toNat % 4)
    (by decide +kernel) position

theorem toNat_ballShape (size : UInt8) : (size &&& 3).toNat = size.toNat % 4 :=
  toNat_alignment size

theorem toNat_mode (mode : UInt8) : (mode &&& 7).toNat = mode.toNat % 8 :=
  forall_byte (p := fun mode ↦ (mode &&& 7).toNat = mode.toNat % 8) (by decide +kernel) mode

theorem toNat_missileShape (mode size : UInt8) :
    ((mode &&& 7) * 4 + (size &&& 3)).toNat = mode.toNat % 8 * 4 + size.toNat % 4 := by
  rw [UInt8.toNat_add, UInt8.toNat_mul, toNat_mode, toNat_ballShape]
  change (mode.toNat % 8 * 4 % 256 + size.toNat % 4) % 256 = _
  omega

theorem toNat_playerShape (skipFirst : Bool) (mode : UInt8) :
    ((if skipFirst then 8 else 0) + (mode &&& 7)).toNat =
      (if skipFirst then 8 else 0) + mode.toNat % 8 := by
  rw [UInt8.toNat_add, toNat_mode]
  cases skipFirst
  · change (0 + mode.toNat % 8) % 256 = 0 + mode.toNat % 8
    omega
  · change (8 + mode.toNat % 8) % 256 = 8 + mode.toNat % 8
    omega

theorem ballShape_lt (size : UInt8) : (size &&& 3).toNat < 4 := by
  rw [toNat_ballShape]
  exact Nat.mod_lt _ (by decide)

theorem missileShape_lt (mode size : UInt8) : ((mode &&& 7) * 4 + (size &&& 3)).toNat < 32 := by
  rw [toNat_missileShape]
  omega

theorem playerShape_lt (skipFirst : Bool) (mode : UInt8) :
    ((if skipFirst then 8 else 0) + (mode &&& 7)).toNat < 16 := by
  rw [toNat_playerShape]
  split <;> omega

variable {position shape : UInt8}

theorem toNat_offset_place (hposition : position.toNat < columns) :
    (place position shape).offset.toNat = columns - (position.toNat - position.toNat % 4) := by
  have hblock := toNat_block position
  have hle : position &&& 0xFC ≤ 160 := by
    rw [UInt8.le_iff_toNat_le, hblock]
    simp only [columns] at hposition
    exact Nat.le_of_lt (Nat.lt_of_le_of_lt (Nat.sub_le _ _) hposition)
  rw [place, UInt8.toNat_sub_of_le _ _ hle, hblock]
  rfl

theorem within_place {shapes : Nat} (hposition : position.toNat < columns)
    (hshape : shape.toNat < shapes) : (place position shape).Within shapes where
  alignment_lt := by
    rw [place, toNat_alignment]
    exact Nat.mod_lt _ (by decide)
  shape_lt := hshape
  offset_le := by
    rw [toNat_offset_place hposition]
    exact Nat.sub_le _ _

namespace Within

variable {mask : Mask} {shapes column : Nat}

theorem line_lt (h : mask.Within shapes) :
    mask.alignment.toNat * shapes + mask.shape.toNat < 4 * shapes := by
  calc
    mask.alignment.toNat * shapes + mask.shape.toNat < mask.alignment.toNat * shapes + shapes :=
      Nat.add_lt_add_left h.shape_lt _
    _ = (mask.alignment.toNat + 1) * shapes := (Nat.succ_mul _ _).symm
    _ ≤ 4 * shapes := Nat.mul_le_mul_right _ h.alignment_lt

theorem cell_lt (h : mask.Within shapes) (hcolumn : column < columns) :
    mask.offset.toNat + column < rowCells := by
  have hoffset := h.offset_le
  simp only [rowCells, columns] at *
  omega

theorem index_lt (h : mask.Within shapes) (hcolumn : column < columns) :
    mask.index shapes column < 4 * shapes * rowCells := by
  have hline := h.line_lt
  have hcell := h.cell_lt hcolumn
  simp only [index, rowCells, columns] at *
  omega

theorem cell_eq {α : Type} (h : mask.Within shapes) (row : Fin shapes → Row α)
    (hcolumn : column < columns) (missing : α) :
    (ShapeTable.build shapes row).cell (mask.index shapes column) missing =
      (row ⟨mask.shape.toNat, h.shape_lt⟩).get
        ⟨(mask.offset.toNat + column + columns - mask.alignment.toNat) % columns,
          Nat.mod_lt _ (by decide)⟩ := by
  have hpositive : 0 < shapes := Nat.zero_lt_of_lt h.shape_lt
  have hquotient : (mask.alignment.toNat * shapes + mask.shape.toNat) / shapes =
      mask.alignment.toNat := by
    rw [Nat.mul_comm, Nat.mul_add_div hpositive, Nat.div_eq_of_lt h.shape_lt, Nat.add_zero]
  have hremainder : (mask.alignment.toNat * shapes + mask.shape.toNat) % shapes =
      mask.shape.toNat := by
    rw [Nat.mul_comm, Nat.mul_add_mod, Nat.mod_eq_of_lt h.shape_lt]
  rw [ShapeTable.cell, Array.getD_eq_getD_getElem?, index, Nat.add_assoc,
    ShapeTable.getElem?_build row h.line_lt (h.cell_lt hcolumn) (Nat.mod_lt _ hpositive), Option.getD_some]
  simp only [hquotient, hremainder]

end Within

namespace Shows

theorem shape_eq {mask : Mask} (h : mask.Shows position shape) : mask.shape = shape := by
  rcases h with rfl | ⟨rfl, -, rfl⟩
  · rfl
  · rfl

variable {mask : Mask} {shapes column : Nat} (h : mask.Shows position shape)
  (hposition : position.toNat < columns)

include h hposition

theorem within (hshape : shape.toNat < shapes) : mask.Within shapes := by
  rcases h with rfl | ⟨rfl, rfl, rfl⟩
  · exact within_place hposition hshape
  · exact ⟨by decide, hshape, by decide⟩

/-- The cell of the shape at the distance of the column from the position. -/
theorem cell_eq {α : Type} (hshape : shape.toNat < shapes) (row : Fin shapes → Row α)
    (hcolumn : column < columns) (missing : α) :
    (ShapeTable.build shapes row).cell (mask.index shapes column) missing =
      (row ⟨shape.toNat, hshape⟩).along position.toNat column := by
  have hcell := (h.within hposition hshape).cell_eq row hcolumn missing
  rcases h with rfl | ⟨rfl, rfl, rfl⟩
  · have hdistance : ((place position shape).offset.toNat + column + columns -
        (place position shape).alignment.toNat) % columns = ringDistance position.toNat column := by
      have halignment : (place position shape).alignment.toNat = position.toNat % 4 :=
        toNat_alignment position
      have hlt : position.toNat < 160 := hposition
      rw [toNat_offset_place hposition, halignment]
      simp only [ringDistance, columns] at hcolumn ⊢
      omega
    simp only [hdistance] at hcell
    exact hcell
  · have hdistance : (({} : Mask).offset.toNat + column + columns -
        ({} : Mask).alignment.toNat) % columns = ringDistance (0 : UInt8).toNat column := by
      change (0 + column + columns - 0) % columns = ringDistance 0 column
      simp only [ringDistance, columns] at hcolumn ⊢
      omega
    simp only [hdistance] at hcell
    exact hcell

/-- A table cannot tell the descriptor from one built afresh. -/
theorem cell_place {α : Type} (hshape : shape.toNat < shapes) (row : Fin shapes → Row α)
    (hcolumn : column < columns) (missing : α) :
    (ShapeTable.build shapes row).cell (mask.index shapes column) missing =
      (ShapeTable.build shapes row).cell ((place position shape).index shapes column) missing := by
  have hplaced : (place position shape).Shows position shape := .inl rfl
  rw [h.cell_eq hposition hshape row hcolumn, hplaced.cell_eq hposition hshape row hcolumn]

/-- The ball covers as many columns as it is wide, from its position on. -/
theorem coversBall_iff (hshape : shape.toNat < 4) (hcolumn : column < columns) :
    mask.coversBall column ↔ ringDistance position.toNat column < 2 ^ shape.toNat := by
  have hcell : mask.coversBall column = (ballRow shape.toNat).along position.toNat column :=
    h.cell_eq hposition hshape _ hcolumn false
  rw [hcell, Row.along_eq _ (ringDistance_lt _ _), getElem_ballRow hshape (ringDistance_lt _ _), decide_eq_true_iff]

/-- A missile covers as many columns as it is wide, from each of its copies on. -/
theorem coversMissile_iff (hshape : shape.toNat < 32) (hcolumn : column < columns) :
    mask.coversMissile column ↔ ∃ offset ∈ copyOffsets (shape.toNat / 4),
      ringDistance offset (ringDistance position.toNat column) < 2 ^ (shape.toNat % 4) := by
  have hcell : mask.coversMissile column =
      (missileRow (shape.toNat / 4) (shape.toNat % 4)).along position.toNat column :=
    h.cell_eq hposition hshape _ hcolumn false
  have hsize : shape.toNat % 4 < 4 := Nat.mod_lt _ (by decide)
  rw [hcell, Row.along_eq _ (ringDistance_lt _ _), getElem_missileRow _ hsize (ringDistance_lt _ _), decide_eq_true_iff]

theorem playerBit_eq (hshape : shape.toNat < 16) (hcolumn : column < columns) :
    mask.playerBit column =
      (playerRow (8 ≤ shape.toNat) (shape.toNat % 8)).along position.toNat column :=
  h.cell_eq hposition hshape _ hcolumn 0

end Shows

end Mask

end Vcs.Tia
