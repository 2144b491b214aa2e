import Vcs.Proofs.Tia.Coverage
import Vcs.Proofs.Tia.DerivedState

/-!
# Checked Operation

The chip once more, with a check wherever it counts or looks something up: a clock count that is used as a number
of pixels must not be negative, a stretch must fit on the line, a descriptor must stay on its row, and an index
must be one of its table.  The loop that draws stretch after stretch is checked as well, for it would go on for ever
if a stretch brought it no nearer to its clock.  A check that fails leaves nothing to go on with.  Main statement:
from power-on on no check ever fails, and the checked chip does what the chip does.
-/

namespace Vcs.Tia

/-- The cell that a descriptor selects for a column, if it lies on the descriptor's row of the table. -/
def ShapeTable.cell? {α : Type} (table : ShapeTable α) (mask : Mask) (column : Nat) : Option α :=
  if mask.alignment.toNat < 4 ∧ mask.shape.toNat < table.shapes ∧
      mask.offset.toNat + column < rowCells then
    table.cells[mask.index table.shapes column]?
  else none

namespace Objects

def showsPlayfield? (o : Objects) (column : Nat) : Option Bool :=
  if column < columns ∧ playfieldBit (o.registers.test .ctrlpf 0x01) column < 20 then
    some (o.showsPlayfield column)
  else none

def showsPlayer? (player : Player) (column : Nat) : Option Bool := do
  let bit ← playerTable.cell? player.mask column
  some (player.graphic &&& bit != 0)

def showsMissile? (missile : Missile) (column : Nat) : Option Bool :=
  match missile.mask with
  | none => some false
  | some mask => missileTable.cell? mask column

/-- The objects that cover a column.  Everything is looked up, whether or not it is enabled. -/
def covering? (o : Objects) (column : Nat) : Option ObjectSet := do
  let playfield ← o.showsPlayfield? column
  let ball ← ballTable.cell? o.ball.mask column
  let player1 ← showsPlayer? o.players.one column
  let missile1 ← showsMissile? o.missiles.one column
  let player0 ← showsPlayer? o.players.zero column
  let missile0 ← showsMissile? o.missiles.zero column
  some (o.present .playfield (fun _ ↦ playfield) |||
    o.present .ball (fun _ ↦ ball) |||
    o.present .player1 (fun _ ↦ player1) |||
    o.present .missile1 (fun _ ↦ missile1) |||
    o.present .player0 (fun _ ↦ player0) |||
    o.present .missile0 (fun _ ↦ missile0))

def color? (o : Objects) (column : Nat) (set : ObjectSet) : Option UInt8 := do
  let source ← ColorSource.table[(set ||| o.modes).toNat + if 80 ≤ column then 256 else 0]?
  some (o.registers.get (colorRegister source))

/-- Whether every object is on a column of the line; a descriptor can be built for no other place. -/
def onLine (o : Objects) : Bool :=
  o.players.zero.position < 160 && o.players.one.position < 160 && o.missiles.zero.position < 160 &&
    o.missiles.one.position < 160 && o.ball.position < 160

/-- The end of a line.  The phase of the star field picks one of four displacements. -/
def endLine? (o : Objects) : Option Objects :=
  if ((o.starField.phase + 1) &&& 3) < 4 ∧ o.endLine.onLine then some o.endLine else none

end Objects

/-- A count of clocks as a number of cells. -/
def asCount (clocks : Int) : Option Nat :=
  if 0 ≤ clocks then some clocks.toNat else none

def drawColumns? (o : Objects) (pixels : ByteArray) (latches : UInt16) (pointer column : Nat) :
    (count : Nat) → Option (ByteArray × UInt16)
  | 0 => some (pixels, latches)
  | count + 1 => do
    let set ← o.covering? column
    let latch ← Collision.table[set.toNat]?
    let color ← o.color? column set
    drawColumns? o (Store.put pointer color pixels) (latches ||| latch) (pointer + 1) (column + 1)
      count

def drawSegment? (s : Tia) (column count : Nat) : Option Tia :=
  if columns < column + count then none
  else if s.isBlanked then some (s.drawSegment column count)
  else do
    let drawn ← drawColumns? s.objects s.video.current s.collisions s.beam.pointer column count
    some { s with
      beam := { s.beam with pointer := s.beam.pointer + count }
      video := { s.video with current := drawn.1 }
      collisions := drawn.2 }

def Beam.advance? (beam : Beam) (clock : Int) : Option (Int × Beam) :=
  if beam.drawnTo + beam.lineLeft < clock then
    some (beam.lineLeft,
      { beam with drawnTo := beam.drawnTo + beam.lineLeft, lineLeft := lineClocks })
  else do
    let left ← asCount (beam.lineLeft - (clock - beam.drawnTo))
    some (clock - beam.drawnTo, { beam with drawnTo := clock, lineLeft := left })

/-- Draws `width` clocks behind the blank, if there are any. -/
def drawWidth? (s : Tia) (first width : Int) : Option Tia :=
  if 0 < width then do
    let column ← asCount (first - blankClocks)
    let pixels ← asCount width
    s.drawSegment? column pixels
  else some s

def blankEdge? (s : Tia) (pointer : Nat) (first width : Int) : Option Tia :=
  if s.blankPending && first < edgeClocks then do
    let blanks ← asCount (min (edgeClocks - first) width)
    some { s with
      video := { s.video with current := fillPixels s.video.current pointer 0 blanks }
      blankPending := width + first < edgeClocks }
  else some s

/-- Draws a stretch.  Its clocks are integers until columns are drawn. -/
def drawStretch? (s : Tia) (start count : Int) : Option Tia := do
  let skipped := if start < blankClocks then min (blankClocks - start) count else 0
  let drawn ← s.drawWidth? (start + skipped) (count - skipped)
  drawn.blankEdge? s.beam.pointer (start + skipped) (count - skipped)

def sweep? (s : Tia) (clock : Int) : Option Tia := do
  let (count, beam) ← s.beam.advance? clock
  let drawn ← { s with beam := beam }.drawStretch? (lineClocks - s.beam.lineLeft) count
  if drawn.beam.lineLeft = lineClocks then do
    let objects ← drawn.objects.endLine?
    some { drawn with objects := objects }
  else some drawn

/-- Draws stretch after stretch.  A stretch that does not bring the beam nearer to the clock would be drawn for
ever. -/
def sweepTo? (s : Tia) (clock : Int) : Option Tia := do
  let next ← s.sweep? clock
  if next.beam.drawnTo < clock then
    if _ : next.beam.debt clock < s.beam.debt clock then next.sweepTo? clock else none
  else some next
termination_by s.beam.debt clock
decreasing_by assumption

def catchUp? (s : Tia) (clock : Int) : Option Tia :=
  if s.beam.owes clock then s.sweepTo? (min clock s.beam.displayStop) else some s

def strobePlayer? (s : Tia) (which : Which) (clock : Int) : Option Tia := do
  let position := strobeColumn (s.beam.lineClock clock) 5 3
  let old := (s.objects.players.get which).position
  let mode := s.objects.sizeMode which
  if 8 ≤ mode ∨ 160 ≤ old then none
  else do
    let timing ← (StrobeTiming.row mode.toNat old.toNat).toArray[position.toNat]?
    match timing with
    | .midCopy => do
      let caught ← s.catchUp? (clock + 11)
      some (caught.mapObjects (·.placePlayer which position true))
    | .clear => some (s.mapObjects (·.placePlayer which position true))
    | .inDelay => some (s.mapObjects (·.placePlayer which position false))

/-- Motion is looked up by the processor cycle of the line and the nibble of each object. -/
def strobeMotion? (s : Tia) (clock : Int) : Option Tia :=
  if s.beam.lineCycle clock < lineCycles ∧
      ∀ motion ∈ [Register.hmp0, .hmp1, .hmm0, .hmm1, .hmbl],
        (s.objects.registers.get motion >>> 4).toNat < 16 then
    some (s.strobeMotion clock)
  else none

def actOn? (s : Tia) (register : Register) (previous value : UInt8) (clock : Int) (cycles : Nat)
    (afterRead : Bool) (response : Response) : Option (Tia × Response) :=
  match register with
  | .resp0 => (s.strobePlayer? .zero clock).map (·, response)
  | .resp1 => (s.strobePlayer? .one clock).map (·, response)
  | .hmove => (s.strobeMotion? clock).map (·, response)
  | _ => some (s.actOn register previous value clock cycles afterRead response)

/-- The delay of a write, by register and for the playfield by the cycle within a group of four. -/
def delay? (s : Tia) (register : Register) (clock : Int) : Option Nat :=
  match register.delay? with
  | some delay => some delay
  | none => #[4, 5, 2, 3][s.beam.lineCycle clock % 4]?

def write? (s : Tia) (cycles : Nat) (afterRead : Bool) (address : UInt16) (value : UInt8) :
    Option (Tia × Response) := do
  let clock := clockOf cycles
  if 64 ≤ address.toUInt8 &&& 0x3F then none
  else
    match Register.ofAddress? address.toUInt8 with
    | none => do
      let caught ← s.catchUp? clock
      some (caught.enforceCeiling clock)
    | some register => do
      let delay ← s.delay? register clock
      let caught ← s.catchUp? (clock + delay)
      let (cut, response) := caught.enforceCeiling clock
      let previous := cut.objects.registers.get register
      let stored := cut.mapObjects fun o ↦ { o with registers := o.registers.set register value }
      let after ← stored.actOn? register previous value clock cycles afterRead response
      if after.1.objects.onLine then some after else none

def perform? (s : Tia) : Access → Option Tia
  | .read cycles _ _ _ => s.catchUp? (clockOf cycles)
  | .write cycles afterRead address value => (s.write? cycles afterRead address value).map (·.1)

def operate? (s : Tia) : Operation → Option Tia
  | .access request => s.perform? request
  | operation => some (s.operate operation)

def run? (s : Tia) (operations : List Operation) : Option Tia :=
  operations.foldlM operate? s

/-! ## Lookups that succeed -/

namespace Objects

variable {o : Objects} (h : o.Current)

include h

theorem Current.ball_within : o.ball.mask.Within 4 :=
  (h.holds .ballMask List.not_mem_nil).within h.placed.ball (Mask.ballShape_lt _)

theorem Current.player_within (which : Which) : (o.players.get which).mask.Within 16 := by
  obtain ⟨skipFirst, hshows⟩ := h.holds (.playerMask which) List.not_mem_nil
  exact hshows.within (h.placed.player which) (Mask.playerShape_lt _ _)

theorem Current.missile_within (which : Which) {mask : Mask}
    (hmask : (o.missiles.get which).mask = some mask) : mask.Within 32 := by
  obtain ⟨size, -, hshows⟩ := (h.holds (.missileMask which) List.not_mem_nil).1 mask hmask
  exact hshows.within (h.placed.missile which) (Mask.missileShape_lt _ _)

end Objects

theorem ShapeTable.cell?_build {α : Type} {shapes : Nat} (row : Fin shapes → Row α) {mask : Mask}
    (h : mask.Within shapes) {column : Nat} (hcolumn : column < columns) (missing : α) :
    (build shapes row).cell? mask column =
      some ((build shapes row).cell (mask.index shapes column) missing) := by
  have hrow : mask.alignment.toNat < 4 ∧ mask.shape.toNat < shapes ∧
      mask.offset.toNat + column < rowCells := ⟨h.alignment_lt, h.shape_lt, h.cell_lt hcolumn⟩
  have hindex : mask.index shapes column < (build shapes row).cells.size := by
    rw [size_build]
    exact h.index_lt hcolumn
  rw [cell, Array.getD_eq_getD_getElem?, Array.getElem?_eq_getElem hindex, Option.getD_some]
  exact (if_pos hrow).trans (Array.getElem?_eq_getElem hindex)

theorem playfieldBit_lt (reflected : Bool) {column : Nat} (h : column < columns) :
    playfieldBit reflected column < 20 := by
  simp only [columns] at h
  simp only [playfieldBit]
  split_ifs <;> simp_all <;> omega

theorem Objects.Current.covering?_eq {o : Objects} (h : o.Current) {column : Nat}
    (hcolumn : column < columns) : o.covering? column = some (o.covering column) := by
  have hplayfield : o.showsPlayfield? column = some (o.showsPlayfield column) :=
    if_pos ⟨hcolumn, playfieldBit_lt _ hcolumn⟩
  have hball : ballTable.cell? o.ball.mask column = some (o.ball.mask.coversBall column) :=
    ShapeTable.cell?_build _ h.ball_within hcolumn false
  have hplayer (which : Which) : showsPlayer? (o.players.get which) column =
      some (showsPlayer (o.players.get which) column) := by
    have hbit : playerTable.cell? (o.players.get which).mask column =
        some ((o.players.get which).mask.playerBit column) :=
      ShapeTable.cell?_build _ (h.player_within which) hcolumn 0
    rw [showsPlayer?, hbit]
    rfl
  have hmissile (which : Which) : showsMissile? (o.missiles.get which) column =
      some (showsMissile (o.missiles.get which) column) := by
    rcases hmask : (o.missiles.get which).mask with _ | mask
    · simp only [showsMissile?, showsMissile, hmask]
    · simp only [showsMissile?, showsMissile, hmask]
      exact ShapeTable.cell?_build _ (h.missile_within which hmask) hcolumn false
  have hplayer0 := hplayer .zero
  have hplayer1 := hplayer .one
  have hmissile0 := hmissile .zero
  have hmissile1 := hmissile .one
  simp only [Pair.get] at hplayer0 hplayer1 hmissile0 hmissile1
  simp only [covering?, hplayfield, hball, hplayer0, hplayer1, hmissile0, hmissile1,
    Option.bind_eq_bind, Option.bind_some]
  by_cases hnone : o.enabled = 0
  · have habsent (members : ObjectSet) (covers : Unit → Bool) : o.present members covers = 0 := by
      simp [present, hnone, ObjectSet.meets]
    rw [covering, if_pos hnone]
    simp [habsent]
  · rw [covering, if_neg hnone]

theorem Objects.color?_eq (o : Objects) (column : Nat) (set : ObjectSet) :
    o.color? column set = some (o.color column set) := by
  have hindex : (set ||| o.modes).toNat + (if 80 ≤ column then 256 else 0) < 512 := by
    have := (set ||| o.modes).toNat_lt
    split <;> omega
  simp only [color?, color, ColorSource.lookup, decide_eq_true_eq, Vector.getElem?_eq_getElem hindex,
    Option.bind_eq_bind, Option.bind_some]

theorem Collision.table_eq {set : ObjectSet} (h : set.toNat < 64) :
    Collision.table[set.toNat]? = some (Collision.lookup set) := by
  have hindex : set.toNat % 64 = set.toNat := Nat.mod_eq_of_lt h
  simp only [lookup, hindex]
  exact Vector.getElem?_eq_getElem h

theorem asCount_natCast (count : Nat) : asCount count = some count :=
  if_pos (Int.natCast_nonneg count)

theorem Objects.Current.drawColumns?_eq {o : Objects} (h : o.Current) (pixels : ByteArray)
    (latches : UInt16) (pointer : Nat) {column count : Nat} (hfits : column + count ≤ columns) :
    drawColumns? o pixels latches pointer column count =
      some (drawColumns o pixels latches pointer column count) := by
  induction count generalizing pixels latches pointer column with
  | zero => rfl
  | succ count ih =>
    have hcolumn : column < columns := by omega
    simp only [drawColumns?, h.covering?_eq hcolumn, Collision.table_eq (o.covering_lt column),
      o.color?_eq, Option.bind_eq_bind, Option.bind_some]
    exact ih _ _ _ (by omega)

section Drawing

variable {s : Tia}

theorem drawSegment?_eq (h : s.objects.Current) {column count : Nat}
    (hfits : column + count ≤ columns) :
    s.drawSegment? column count = some (s.drawSegment column count) := by
  rw [drawSegment?, if_neg (Nat.not_lt.mpr hfits)]
  by_cases hblanked : s.isBlanked
  · rw [if_pos hblanked]
  · have hshown : ¬ s.objects.registers.test .vblank 0x02 := hblanked
    simp only [if_neg hblanked, h.drawColumns?_eq _ _ _ hfits, Option.bind_eq_bind, Option.bind_some,
      drawSegment, if_neg hshown]

theorem Beam.advance?_eq {beam : Beam} {clock : Int} (hnow : beam.drawnTo ≤ clock) :
    beam.advance? clock = some (((beam.advance clock).1 : Int), (beam.advance clock).2) := by
  by_cases hlong : beam.drawnTo + beam.lineLeft < clock
  · rw [advance?, advance, if_pos hlong, if_pos hlong]
  · have hcount : ((clock - beam.drawnTo).toNat : Int) = clock - beam.drawnTo := by omega
    have hleft : (beam.lineLeft : Int) - (clock - beam.drawnTo) =
        (beam.lineLeft - (clock - beam.drawnTo).toNat : Nat) := by omega
    simp only [advance?, advance, if_neg hlong, hleft, asCount_natCast, Option.bind_eq_bind,
      Option.bind_some, hcount]

theorem drawWidth?_eq (h : s.objects.Current) {first width : Nat}
    (hbegun : 0 < width → blankClocks ≤ first) (hfits : first + width ≤ lineClocks) :
    s.drawWidth? first width = some (s.drawSegment (first - blankClocks) width) := by
  by_cases hnone : width = 0
  · rw [drawWidth?, if_neg (by omega), hnone, drawSegment_zero]
  · have hpast : blankClocks ≤ first := hbegun (Nat.pos_of_ne_zero hnone)
    have hcolumn : (first : Int) - blankClocks = (first - blankClocks : Nat) :=
      (Int.ofNat_sub hpast).symm
    have hline : first - blankClocks + width ≤ columns := by
      simp only [lineClocks, blankClocks, columns] at *
      omega
    rw [drawWidth?, if_pos (by omega), hcolumn]
    simp only [asCount_natCast, Option.bind_eq_bind, Option.bind_some]
    exact drawSegment?_eq h hline

theorem blankEdge?_eq (pointer first width : Nat) :
    s.blankEdge? pointer first width = some (s.blankEdge pointer first width) := by
  have hedge : (first : Int) < edgeClocks ↔ first < edgeClocks := Int.ofNat_lt
  have hlater : (width : Int) + first < edgeClocks ↔ width + first < edgeClocks := by omega
  simp only [blankEdge?, blankEdge, hedge, hlater]
  by_cases hpending : s.blankPending && decide (first < edgeClocks)
  · have hlt : first < edgeClocks := by simp_all
    have hblanks : min ((edgeClocks : Int) - first) width = (min (edgeClocks - first) width : Nat) := by
      omega
    simp only [if_pos hpending, hblanks, asCount_natCast, Option.bind_eq_bind, Option.bind_some]
  · simp only [if_neg hpending]

/-- Neither a count nor a column of a stretch that stays on its line is ever negative. -/
theorem drawStretch?_eq (h : s.objects.Current) {start count : Nat}
    (hfits : start + count ≤ lineClocks) :
    s.drawStretch? start count = some (s.drawStretch start count) := by
  let skipped := min (blankClocks - start) count
  have hskipped : (if (start : Int) < blankClocks then min (blankClocks - (start : Int)) count else 0) =
      (skipped : Int) := by
    simp only [skipped, blankClocks]
    split <;> omega
  have hfirst : (start : Int) + skipped = (start + skipped : Nat) := (Int.natCast_add _ _).symm
  have hwidth : (count : Int) - skipped = (count - skipped : Nat) := by omega
  have hdrawn : s.drawWidth? (start + skipped : Nat) (count - skipped : Nat) =
      some (s.drawSegment (start + skipped - blankClocks) (count - skipped)) :=
    drawWidth?_eq h (by simp only [skipped]; omega) (by omega)
  simp only [drawStretch?, hskipped, hfirst, hwidth, hdrawn, Option.bind_eq_bind, Option.bind_some]
  exact blankEdge?_eq _ _ _

theorem Objects.Current.onLine_eq {o : Objects} (h : o.Current) : o.onLine = true := by
  have hlt {position : UInt8} (hposition : position.toNat < columns) : position < 160 := hposition
  simp only [Objects.onLine, Bool.and_eq_true, decide_eq_true_eq]
  exact ⟨⟨⟨⟨hlt (h.placed.player .zero), hlt (h.placed.player .one)⟩, hlt (h.placed.missile .zero)⟩,
    hlt (h.placed.missile .one)⟩, hlt h.placed.ball⟩

theorem Objects.Current.endLine?_eq {o : Objects} (h : o.Current) : o.endLine? = some o.endLine := by
  have hphase : (o.starField.phase + 1) &&& 3 < 4 := Mask.ballShape_lt _
  exact if_pos ⟨hphase, h.endLine.onLine_eq⟩

theorem drawStretch_objects (start count : Nat) :
    (s.drawStretch start count).objects = s.objects := by
  have hsegment (column count : Nat) : (s.drawSegment column count).objects = s.objects := by
    unfold drawSegment
    dsimp only
    split <;> rfl
  have hedge (s : Tia) (pointer first width : Nat) :
      (s.blankEdge pointer first width).objects = s.objects := by
    unfold blankEdge
    split <;> rfl
  rw [drawStretch, hedge, hsegment]

theorem Beam.advance_lineLeft_le {beam : Beam} (hle : beam.lineLeft ≤ lineClocks) (clock : Int) :
    (beam.advance clock).1 ≤ beam.lineLeft ∧ (beam.advance clock).2.lineLeft ≤ lineClocks := by
  unfold advance
  split
  · exact ⟨Nat.le_refl _, Nat.le_refl _⟩
  · dsimp only
    omega

/-- What a sweep needs, and leaves for the next one. -/
structure Sweepable (s : Tia) : Prop where
  current : s.objects.Current
  lineLeft_le : s.beam.lineLeft ≤ lineClocks

theorem Sweepable.sweep (h : s.Sweepable) (clock : Int) : (s.sweep clock).Sweepable where
  current := by
    rw [Tia.sweep]
    dsimp only
    split
    · rw [drawStretch_objects]
      exact h.current.endLine
    · rw [drawStretch_objects]
      exact h.current
  lineLeft_le := by
    obtain ⟨drawn, hbeam⟩ := s.sweep_beam clock
    rw [hbeam]
    exact (Beam.advance_lineLeft_le h.lineLeft_le clock).2

theorem Sweepable.sweep?_eq (h : s.Sweepable) {clock : Int} (hnow : s.beam.drawnTo ≤ clock) :
    s.sweep? clock = some (s.sweep clock) := by
  have hstart : (lineClocks : Int) - s.beam.lineLeft = (lineClocks - s.beam.lineLeft : Nat) :=
    (Int.ofNat_sub h.lineLeft_le).symm
  have hfits : lineClocks - s.beam.lineLeft + (s.beam.advance clock).1 ≤ lineClocks := by
    have hcount := (Beam.advance_lineLeft_le h.lineLeft_le clock).1
    have hle := h.lineLeft_le
    omega
  have hdrawn := drawStretch?_eq (s := { s with beam := (s.beam.advance clock).2 }) h.current hfits
  have hobjects := drawStretch_objects (s := { s with beam := (s.beam.advance clock).2 })
    (lineClocks - s.beam.lineLeft) (s.beam.advance clock).1
  simp only [sweep?, Beam.advance?_eq hnow, hstart, hdrawn, Option.bind_eq_bind, Option.bind_some,
    Tia.sweep]
  split
  · rw [hobjects, h.current.endLine?_eq]
    rfl
  · rfl

/-- The loop ends, and every stretch of it can be drawn. -/
theorem Sweepable.sweepTo?_eq (h : s.Sweepable) {clock : Int} (hnow : s.beam.drawnTo ≤ clock) :
    s.sweepTo? clock = some (s.sweepTo clock) := by
  fun_induction sweepTo s clock with
  | case1 s next hleft ih =>
    have hnearer : next.beam.debt clock < s.beam.debt clock := s.debt_sweep_lt clock hleft
    rw [sweepTo?, h.sweep?_eq hnow, Option.bind_eq_bind, Option.bind_some, if_pos hleft,
      dif_pos hnearer]
    exact ih (h.sweep _) (Int.le_of_lt hleft)
  | case2 s next hdone =>
    rw [sweepTo?, h.sweep?_eq hnow, Option.bind_eq_bind, Option.bind_some, if_neg hdone]

theorem Sweepable.catchUp?_eq (h : s.Sweepable) (clock : Int) :
    s.catchUp? clock = some (s.catchUp clock) := by
  rw [catchUp?, catchUp]
  split
  · next howes =>
    have hnow : s.beam.drawnTo ≤ min clock s.beam.displayStop := by
      simp only [Beam.owes, Bool.and_eq_true, decide_eq_true_eq] at howes
      omega
    exact h.sweepTo?_eq hnow
  · rfl

theorem Sweepable.strobePlayer?_eq (h : s.Sweepable) (which : Which) (clock : Int) :
    s.strobePlayer? which clock = some (s.strobePlayer which clock) := by
  let position := strobeColumn (s.beam.lineClock clock) 5 3
  let timings := StrobeTiming.row (s.objects.sizeMode which).toNat
    (s.objects.players.get which).position.toNat
  have hmode : s.objects.sizeMode which < 8 := s.objects.sizeMode_lt which
  have hold : (s.objects.players.get which).position < 160 := h.current.placed.player which
  have hbounds : ¬ (8 ≤ s.objects.sizeMode which ∨ 160 ≤ (s.objects.players.get which).position) := by
    simp only [UInt8.not_le, not_or]
    exact ⟨hmode, hold⟩
  have hindex : position.toNat < timings.toArray.size := by
    rw [Vector.size_toArray]
    exact strobeColumn_lt _ _ (by decide)
  have htiming : timings.toArray[position.toNat]? =
      some (StrobeTiming.classify (s.objects.sizeMode which) (s.objects.players.get which).position
        position) := by
    rw [StrobeTiming.classify, Array.getD_eq_getD_getElem?, Array.getElem?_eq_getElem hindex,
      Option.getD_some]
  simp only [strobePlayer?, if_neg hbounds, timings, position] at htiming ⊢
  rw [htiming, strobePlayer]
  simp only [Option.bind_eq_bind, Option.bind_some, h.catchUp?_eq]
  cases StrobeTiming.classify _ _ _ <;> rfl

theorem strobeMotion?_eq (s : Tia) (clock : Int) : s.strobeMotion? clock = some (s.strobeMotion clock) := by
  have hnibble (value : UInt8) : (value >>> 4).toNat < 16 :=
    forall_byte (p := fun value ↦ (value >>> 4).toNat < 16) (by decide +kernel) value
  have hcycle : s.beam.lineCycle clock < lineCycles := by
    simp only [Beam.lineCycle, Beam.lineClock, lineClocks, clocksPerCycle, lineCycles]
    omega
  exact if_pos ⟨hcycle, fun _ _ ↦ hnibble _⟩

theorem delay?_eq (s : Tia) (register : Register) (clock : Int) :
    s.delay? register clock = some (register.delayOn (s.beam.lineCycle clock)) := by
  have hgroup (cycle : Nat) :
      #[4, 5, 2, 3][cycle % 4]? = some (Register.playfieldDelay cycle) := by
    have hlt : cycle % 4 < 4 := Nat.mod_lt _ (by decide)
    rw [Register.playfieldDelay]
    interval_cases cycle % 4 <;> rfl
  rw [delay?, Register.delayOn]
  split
  · next hfixed => rw [hfixed, Option.getD_some]
  · next hgrouped => rw [hgrouped, Option.getD_none, hgroup]

theorem actOn?_eq {register : Register} (h : register.readers = [] → s.Sweepable)
    (previous value : UInt8) (clock : Int) (cycles : Nat) (afterRead : Bool) (response : Response) :
    s.actOn? register previous value clock cycles afterRead response =
      some (s.actOn register previous value clock cycles afterRead response) := by
  cases register with
  | resp0 => simp only [actOn?, actOn, (h rfl).strobePlayer?_eq, Option.map_some]
  | resp1 => simp only [actOn?, actOn, (h rfl).strobePlayer?_eq, Option.map_some]
  | hmove => simp only [actOn?, actOn, strobeMotion?_eq, Option.map_some]
  | _ => rfl

theorem Sweepable.cut (h : s.Sweepable) (caughtUpTo clock : Int) :
    ((s.catchUp caughtUpTo).enforceCeiling clock).1.Sweepable := by
  obtain ⟨frame, hframe⟩ := (s.catchUp caughtUpTo).enforceCeiling_eq clock
  rw [hframe]
  exact ⟨catchUp_current h.lineLeft_le h.current _, catchUp_lineLeft_le h.lineLeft_le _⟩

theorem Sweepable.write?_eq (h : s.Sweepable) (cycles : Nat) (afterRead : Bool) (address : UInt16)
    (value : UInt8) :
    s.write? cycles afterRead address value = some (s.write cycles afterRead address value) := by
  have hnumber : ¬ 64 ≤ address.toUInt8 &&& 0x3F :=
    forall_byte (p := fun number ↦ ¬ 64 ≤ number &&& 0x3F) (by decide +kernel) address.toUInt8
  have hafter := (write_current h.lineLeft_le h.current cycles afterRead address value).onLine_eq
  rcases hregister : Register.ofAddress? address.toUInt8 with _ | register
  · simp only [write?, write, if_neg hnumber, hregister, h.catchUp?_eq, Option.bind_eq_bind,
      Option.bind_some]
  · have hcut := h.cut (clockOf cycles + register.delayOn (s.beam.lineCycle (clockOf cycles)))
      (clockOf cycles)
    simp only [write, hregister] at hafter
    simp only [write?, write, if_neg hnumber, hregister, delay?_eq, h.catchUp?_eq,
      Option.bind_eq_bind, Option.bind_some]
    rw [actOn?_eq, Option.bind_some, if_pos hafter]
    intro hreaders
    refine ⟨?_, hcut.lineLeft_le⟩
    have hstored := Objects.CurrentBut.store hcut.current register value
    rwa [hreaders] at hstored

theorem Sweepable.perform?_eq (h : s.Sweepable) (request : Access) :
    s.perform? request = some (s.perform request).2 := by
  cases request with
  | read cycles dataBus ports address => exact h.catchUp?_eq _
  | write cycles afterRead address value =>
    rw [perform?, h.write?_eq]
    rfl

end Drawing

theorem operate?_eq {s : Tia} (h : s.Sweepable) (operation : Operation) :
    s.operate? operation = some (s.operate operation) := by
  cases operation with
  | access request => exact h.perform?_eq request
  | _ => rfl

theorem Sweepable.operate {s : Tia} (h : s.Sweepable) (operation : Operation) :
    (s.operate operation).Sweepable :=
  ⟨operate_current h.lineLeft_le h.current operation, operate_lineLeft_le h.lineLeft_le operation⟩

theorem Sweepable.run?_eq {s : Tia} (h : s.Sweepable) (operations : List Operation) :
    s.run? operations = some (s.run operations) := by
  induction operations generalizing s with
  | nil => rfl
  | cons operation rest ih =>
    rw [run?, List.foldlM_cons, operate?_eq h, Option.bind_eq_bind, Option.bind_some]
    exact ih (h.operate operation)

theorem powerUp_sweepable (start : PowerUp) : start.chip.Sweepable where
  current := by cases start <;> exact Objects.current_default
  lineLeft_le := powerUp_lineLeft_le start

/-- For every column the descriptor stays on its row of the table, and the table answers. -/
def Mask.Fits {α : Type} (mask : Mask) (table : ShapeTable α) : Prop :=
  ∀ column < columns, mask.offset.toNat + column < rowCells ∧
    mask.index table.shapes column < table.cells.size

theorem Mask.Within.fits {α : Type} {mask : Mask} {shapes : Nat} (h : mask.Within shapes)
    (row : Fin shapes → Row α) : mask.Fits (.build shapes row) := by
  intro column hcolumn
  rw [ShapeTable.size_build]
  exact ⟨h.cell_lt hcolumn, h.index_lt hcolumn⟩

/-- What the chip keeps of the beam and the objects is in range: the objects are on columns, no more than a line is
left of the line, and every descriptor fits its table. -/
structure InRange (s : Tia) : Prop where
  player : ∀ which, (s.objects.players.get which).position.toNat < columns
  missile : ∀ which, (s.objects.missiles.get which).position.toNat < columns
  ball : s.objects.ball.position.toNat < columns
  lineLeft : s.beam.lineLeft ≤ lineClocks
  playerMask : ∀ which, (s.objects.players.get which).mask.Fits playerTable
  missileMask : ∀ which, ∀ mask ∈ (s.objects.missiles.get which).mask, mask.Fits missileTable
  ballMask : s.objects.ball.mask.Fits ballTable

theorem Sweepable.inRange {s : Tia} (h : s.Sweepable) : s.InRange where
  player := h.current.placed.player
  missile := h.current.placed.missile
  ball := h.current.placed.ball
  lineLeft := h.lineLeft_le
  playerMask which := (h.current.player_within which).fits _
  missileMask which _ hmask := (h.current.missile_within which hmask).fits _
  ballMask := h.current.ball_within.fits _

/-- Whatever is done to a chip after power-on, it stays in range; and the checked chip, in which every count, every
lookup and every turn of the loop may fail, gets through the run and to the same state. -/
theorem run_checked (start : PowerUp) (operations : List Operation) :
    (start.chip.run operations).InRange ∧
      start.chip.run? operations = some (start.chip.run operations) := by
  have hstart := powerUp_sweepable start
  have hstop : (start.chip.run operations).Sweepable :=
    run_induction start hstart (fun _ operation h ↦ h.operate operation) operations
  exact ⟨hstop.inRange, hstart.run?_eq operations⟩

end Vcs.Tia
