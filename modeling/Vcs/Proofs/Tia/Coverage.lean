import Vcs.Proofs.Tia.Cache

/-!
# Geometry of a Column

What covers a column, said without tables: the playfield by the dot of the block that the column belongs to, the
ball, the missiles and the players by how far right of their copies it lies, and all of them only if they are
enabled.  As long as no cache is stale the chip finds the same objects in its masks, and draws the column in the
colour of the register that they choose by priority.
-/

namespace Vcs.Tia

/-- One of the six objects. -/
inductive Figure where
  | player (which : Which)
  | missile (which : Which)
  | ball
  | playfield
  deriving DecidableEq

namespace Figure

def member : Figure → ObjectSet
  | player which => which.player
  | missile which => which.missile
  | ball => .ball
  | playfield => .playfield

def all : List Figure :=
  [player .zero, player .one, missile .zero, missile .one, ball, playfield]

theorem mem_all (figure : Figure) : figure ∈ all := by
  cases figure with
  | player which | missile which => cases which <;> decide
  | ball | playfield => decide

end Figure

namespace ObjectSet

/-- The set of the figures that are present. -/
def ofFigures (present : Figure → Bool) : ObjectSet :=
  (if present .playfield then .playfield else 0) ||| (if present .ball then .ball else 0) |||
    (if present (.player .one) then .player1 else 0) |||
    (if present (.missile .one) then .missile1 else 0) |||
    (if present (.player .zero) then .player0 else 0) |||
    (if present (.missile .zero) then .missile0 else 0)

theorem meets_ofFigures (present : Figure → Bool) (figure : Figure) :
    (ofFigures present).meets figure.member = present figure := by
  have hsets : ∀ playfield ball player1 missile1 player0 missile0 : Bool,
      let set := (if playfield then ObjectSet.playfield else 0) ||| (if ball then .ball else 0) |||
        (if player1 then .player1 else 0) ||| (if missile1 then .missile1 else 0) |||
        (if player0 then .player0 else 0) ||| (if missile0 then .missile0 else 0)
      set.meets .playfield = playfield ∧ set.meets .ball = ball ∧ set.meets .player1 = player1 ∧
        set.meets .missile1 = missile1 ∧ set.meets .player0 = player0 ∧
        set.meets .missile0 = missile0 := by
    decide
  obtain ⟨hplayfield, hball, hplayer1, hmissile1, hplayer0, hmissile0⟩ := hsets
    (present .playfield) (present .ball) (present (.player .one)) (present (.missile .one))
    (present (.player .zero)) (present (.missile .zero))
  cases figure with
  | playfield => exact hplayfield
  | ball => exact hball
  | player which => cases which; exacts [hplayer0, hplayer1]
  | missile which => cases which; exacts [hmissile0, hmissile1]

theorem ofFigures_lt (present : Figure → Bool) : (ofFigures present).toNat < 64 := by
  have hsets : ∀ playfield ball player1 missile1 player0 missile0 : Bool,
      ((if playfield then ObjectSet.playfield else 0) ||| (if ball then .ball else 0) |||
        (if player1 then .player1 else 0) ||| (if missile1 then .missile1 else 0) |||
        (if player0 then .player0 else 0) ||| (if missile0 then .missile0 else 0)).toNat < 64 := by
    decide
  exact hsets _ _ _ _ _ _

end ObjectSet

namespace Objects

/-- The block of the playfield that a column belongs to.  The right half repeats the left one, or reflects it. -/
def playfieldBlock (o : Objects) (column : Nat) : Nat :=
  if column < 80 then column / 4
  else if o.registers.test .ctrlpf 0x01 then (159 - column) / 4
  else (column - 80) / 4

/-- The dot of a block, from the left: the upper half of the first register from its lowest bit on, the second from
its highest bit on, the third from its lowest. -/
def playfieldDot (o : Objects) (block : Nat) : Bool :=
  if block < 4 then (o.registers.get .pf0).toNat.testBit (block + 4)
  else if block < 12 then (o.registers.get .pf1).toNat.testBit (11 - block)
  else (o.registers.get .pf2).toNat.testBit (block - 12)

/-- Width class of a missile on the screen.  The star field stretches missile 0 or hides it, and whether it does is
known to the descriptor alone, for a write to the size register ends it before the line does. -/
def shownSize (o : Objects) (which : Which) : Option Nat :=
  if which = .zero ∧ o.starField.armed then
    (o.missiles.get which).mask.map fun mask ↦ mask.shape.toNat % 4
  else some (o.missileSize which).toNat

/-- Whether a player leaves out its first copy on this line, which again the descriptor alone knows. -/
def skipsFirst (o : Objects) (which : Which) : Bool :=
  8 ≤ (o.players.get which).mask.shape.toNat

/-- Where the copies of a player start. -/
def copyStarts (o : Objects) (which : Which) : List Nat :=
  (playerStarts (o.skipsFirst which) (o.sizeMode which).toNat).map
    ((o.players.get which).position.toNat + ·)

/-- Whether a column lies where a figure is. -/
def reaches (o : Objects) (column : Nat) : Figure → Bool
  | .playfield => o.playfieldDot (o.playfieldBlock column)
  | .ball => ringDistance o.ball.position.toNat column < 2 ^ o.ballSize.toNat
  | .missile which =>
    (o.shownSize which).any fun size ↦ (copyOffsets (o.sizeMode which).toNat).any fun offset ↦
      ringDistance ((o.missiles.get which).position.toNat + offset) column < 2 ^ size
  | .player which =>
    let scale := playerScale (o.sizeMode which).toNat
    (o.copyStarts which).any fun start ↦
      ringDistance start column < 8 * scale &&
        (o.players.get which).graphic.toNat.testBit (7 - ringDistance start column / scale)

/-- A figure covers a column if it is enabled and the column lies where it is. -/
def covers (o : Objects) (column : Nat) (figure : Figure) : Bool :=
  o.enabled.meets figure.member && o.reaches column figure

/-! ## The chip's way of finding out -/

/-- Whether the masks or the playfield word show a figure in a column. -/
def shows (o : Objects) (column : Nat) : Figure → Bool
  | .playfield => o.showsPlayfield column
  | .ball => o.ball.mask.coversBall column
  | .missile which => showsMissile (o.missiles.get which) column
  | .player which => showsPlayer (o.players.get which) column

/-- An object is found if it is enabled and shown. -/
theorem covering_eq (o : Objects) (column : Nat) :
    o.covering column =
      .ofFigures fun figure ↦ o.enabled.meets figure.member && o.shows column figure := by
  unfold covering
  split
  · next hnone => simp [hnone, ObjectSet.meets, ObjectSet.ofFigures]
  · rfl

/-- Nothing but the six objects is ever found in a column. -/
theorem covering_lt (o : Objects) (column : Nat) : (o.covering column).toNat < 64 := by
  rw [covering_eq]
  exact ObjectSet.ofFigures_lt _

theorem sizeMode_lt (o : Objects) (which : Which) : (o.sizeMode which).toNat < 8 := by
  rw [sizeMode, Mask.toNat_mode]
  exact Nat.mod_lt _ (by decide)

theorem widthClass_lt (value : UInt8) : ((value &&& 0x30) >>> 4).toNat < 4 :=
  forall_byte (p := fun value ↦ ((value &&& 0x30) >>> 4).toNat < 4) (by decide +kernel) value

theorem testBit_word (word : UInt32) {bit : Nat} (h : bit < 32) :
    ((word >>> UInt32.ofNat bit) &&& 1 != 0) = word.toNat.testBit bit := by
  have hbit : (UInt32.ofNat bit).toNat % 32 = bit := by
    rw [UInt32.toNat_ofNat']
    omega
  rw [Nat.testBit, bne, bne, Nat.and_comm, Bool.not_inj_iff, beq_eq_beq, ← UInt32.toNat_inj,
    UInt32.toNat_and, UInt32.toNat_shiftRight, hbit]
  rfl

theorem testBit_byte (value : UInt8) {bit : Nat} (h : 8 ≤ bit) :
    value.toNat.testBit bit = false :=
  Nat.testBit_lt_two_pow
    (Nat.lt_of_lt_of_le value.toNat_lt (Nat.pow_le_pow_right (by decide) h))

theorem testBit_playfieldBits (o : Objects) {bit : Nat} (h : bit < 20) :
    o.playfieldBits.toNat.testBit bit =
      ((o.registers.get .pf0).toNat.testBit (4 + bit) ||
        4 ≤ bit && (o.registers.get .pf1).toNat.testBit (bit - 4) ||
        12 ≤ bit && (o.registers.get .pf2).toNat.testBit (bit - 12)) := by
  have hshifted (byte : UInt8) (count : UInt32) (hcount : count.toNat ≤ 12) :
      (byte.toUInt32 <<< count).toNat.testBit bit =
        (count.toNat ≤ bit && byte.toNat.testBit (bit - count.toNat)) := by
    have hbit : bit < 32 := by omega
    rw [UInt32.toNat_shiftLeft, Nat.testBit_mod_two_pow, Nat.mod_eq_of_lt (by omega),
      Nat.testBit_shiftLeft, UInt8.toNat_toUInt32]
    simp [hbit]
  have hsecond := hshifted (o.registers.get .pf1) 4 (by decide)
  have hthird := hshifted (o.registers.get .pf2) 12 (by decide)
  rw [playfieldBits, UInt32.toNat_or, UInt32.toNat_or, Nat.testBit_or, Nat.testBit_or, hsecond,
    hthird, UInt8.toNat_toUInt32, UInt8.toNat_shiftRight, Nat.testBit_shiftRight]
  rfl

/-- The word holds the dots from the left, but for those of the second register, which are the other way round. -/
theorem testBit_playfieldDot (o : Objects) {block : Nat} (h : block < 20) :
    o.playfieldBits.toNat.testBit (if 4 ≤ block && block < 12 then 15 - block else block) =
      o.playfieldDot block := by
  rcases Nat.lt_or_ge block 4 with hfirst | hfirst
  · have hless : ¬ 4 ≤ block ∧ ¬ 12 ≤ block := by omega
    rw [playfieldDot, if_pos hfirst, Nat.add_comm block 4]
    simp [testBit_playfieldBits o h, hless]
  · rcases Nat.lt_or_ge block 12 with hsecond | hthird
    · have hbit : 15 - block < 20 ∧ 4 ≤ 15 - block ∧ ¬ 12 ≤ 15 - block ∧ 8 ≤ 4 + (15 - block) ∧
          15 - block - 4 = 11 - block := by omega
      obtain ⟨hlt, hin, hout, hbeyond, hdistance⟩ := hbit
      rw [playfieldDot, if_neg (Nat.not_lt.mpr hfirst), if_pos hsecond]
      simp [hfirst, hsecond, testBit_playfieldBits o hlt, testBit_byte _ hbeyond, hin, hout,
        hdistance]
    · have hbeyond : 8 ≤ 4 + block ∧ 8 ≤ block - 4 := by omega
      rw [playfieldDot, if_neg (Nat.not_lt.mpr hfirst), if_neg (Nat.not_lt.mpr hthird)]
      simp [testBit_playfieldBits o h, testBit_byte _ hbeyond.1, testBit_byte _ hbeyond.2, hthird,
        Nat.not_lt.mpr hthird]

section Agreement

variable {o : Objects} {column : Nat} (h : o.Current)

include h

theorem Current.showsPlayfield_eq (hcolumn : column < columns) :
    o.showsPlayfield column = o.reaches column .playfield := by
  have hblock : o.playfieldBlock column < 20 := by
    simp only [playfieldBlock, columns] at *
    split_ifs <;> omega
  have hbit : playfieldBit (o.registers.test .ctrlpf 0x01) column =
      if 4 ≤ o.playfieldBlock column && o.playfieldBlock column < 12 then
        15 - o.playfieldBlock column
      else o.playfieldBlock column := by
    have hsame : (if column / 4 < 20 then column / 4
        else if o.registers.test .ctrlpf 0x01 then 39 - column / 4 else column / 4 - 20) =
        o.playfieldBlock column := by
      simp only [playfieldBlock, columns] at *
      split_ifs <;> omega
    simp only [playfieldBit, hsame]
  have hword : o.playfield = o.playfieldBits := (h.holds .playfield List.not_mem_nil).1
  have hlt : playfieldBit (o.registers.test .ctrlpf 0x01) column < 32 := by
    rw [hbit]
    split_ifs <;> omega
  rw [showsPlayfield, hword, testBit_word _ hlt, hbit]
  exact testBit_playfieldDot o hblock

theorem Current.coversBall_eq (hcolumn : column < columns) :
    o.ball.mask.coversBall column = o.reaches column .ball := by
  have hsize : o.ballSize.toNat < 4 := widthClass_lt _
  have hshape : (o.ballSize &&& 3).toNat = o.ballSize.toNat := by
    rw [Mask.toNat_ballShape, Nat.mod_eq_of_lt hsize]
  have hmask : o.ball.mask.Shows o.ball.position (o.ballSize &&& 3) :=
    h.holds .ballMask List.not_mem_nil
  rw [Bool.eq_iff_iff, hmask.coversBall_iff h.placed.ball (Mask.ballShape_lt _) hcolumn, hshape]
  exact decide_eq_true_iff.symm

/-- The descriptor of a missile is as wide as the missile is shown, and hidden when the missile is. -/
theorem Current.shownSize_eq (which : Which) :
    o.shownSize which = (o.missiles.get which).mask.map fun mask ↦ mask.shape.toNat % 4 := by
  by_cases hfield : which = .zero ∧ o.starField.armed
  · exact if_pos hfield
  · obtain ⟨hshows, hhidden⟩ := h.holds (.missileMask which) List.not_mem_nil
    have hsize : (o.missileSize which).toNat < 4 := widthClass_lt _
    rw [shownSize, if_neg hfield]
    rcases hmask : (o.missiles.get which).mask with _ | mask
    · exact absurd (hhidden hmask) hfield
    · obtain ⟨size, rfl | ⟨hwhich, harmed, -⟩, hplaced⟩ := hshows mask hmask
      · rw [Option.map_some, hplaced.shape_eq, Mask.toNat_missileShape]
        congr 1
        omega
      · exact absurd ⟨hwhich, harmed⟩ hfield

theorem Current.showsMissile_eq (hcolumn : column < columns) (which : Which) :
    showsMissile (o.missiles.get which) column = o.reaches column (.missile which) := by
  rw [reaches, h.shownSize_eq]
  rcases hmask : (o.missiles.get which).mask with _ | mask
  · rw [showsMissile, hmask]
    rfl
  · obtain ⟨size, -, hplaced⟩ := (h.holds (.missileMask which) List.not_mem_nil).1 mask hmask
    have hshape : ((o.sizeMode which &&& 7) * 4 + (size &&& 3)).toNat / 4 =
        (o.sizeMode which).toNat % 8 := by
      rw [Mask.toNat_missileShape]
      omega
    rw [showsMissile, hmask, Bool.eq_iff_iff]
    dsimp only
    rw [hplaced.coversMissile_iff (h.placed.missile which) (Mask.missileShape_lt _ _) hcolumn,
      hshape, copyOffsets_mod, Option.map_some, Option.any_some, hplaced.shape_eq]
    simp only [ringDistance_add, List.any_eq_true, decide_eq_true_eq]

/-- The table shows a bit of the graphic in the columns of a copy, and none elsewhere. -/
theorem Current.playerBit_eq (hcolumn : column < columns) (which : Which) :
    (o.players.get which).mask.playerBit column =
      (playerRow (o.skipsFirst which) (o.sizeMode which).toNat).along
        (o.players.get which).position.toNat column := by
  obtain ⟨skipFirst, hplaced⟩ := h.holds (.playerMask which) List.not_mem_nil
  have hmode := o.sizeMode_lt which
  have hrow : ((if skipFirst then 8 else 0) + (o.sizeMode which &&& 7)).toNat % 8 =
      (o.sizeMode which).toNat := by
    rw [Mask.toNat_playerShape]
    split <;> omega
  rw [hplaced.playerBit_eq (h.placed.player which) (Mask.playerShape_lt _ _) hcolumn, hrow,
    skipsFirst, hplaced.shape_eq]

theorem Current.showsPlayer_eq (hcolumn : column < columns) (which : Which) :
    showsPlayer (o.players.get which) column = o.reaches column (.player which) := by
  have hlt := ringDistance_lt (o.players.get which).position.toNat column
  rw [showsPlayer, h.playerBit_eq hcolumn, Row.along_eq _ hlt, playerRow_shows _ _ _ hlt]
  simp only [ringDistance_add, reaches, copyStarts, List.any_map]
  rfl

/-- While no cache is stale, the masks and the playfield word show what the geometry says. -/
theorem Current.shows_eq (hcolumn : column < columns) (figure : Figure) :
    o.shows column figure = o.reaches column figure := by
  cases figure with
  | playfield => exact h.showsPlayfield_eq hcolumn
  | ball => exact h.coversBall_eq hcolumn
  | missile which => exact h.showsMissile_eq hcolumn which
  | player which => exact h.showsPlayer_eq hcolumn which

theorem Current.covering_meets_eq (hcolumn : column < columns) (figure : Figure) :
    (o.covering column).meets figure.member = o.covers column figure := by
  rw [covering_eq, ObjectSet.meets_ofFigures, h.shows_eq hcolumn, covers]

end Agreement

end Objects

/-- Where the colour of a column comes from.  Playfield and ball are in front if `fieldFirst` is set; otherwise the
players with their missiles are, the first before the second, and with `score` a half of the playfield counts as that
half's player. -/
def ColorSource.priority (rightHalf score fieldFirst : Bool) (covers : Figure → Bool) : ColorSource :=
  let side (which : Which) := covers (.player which) || covers (.missile which)
  let field := covers .ball || covers .playfield
  if fieldFirst then
    if field then playfield
    else if side .zero then player0
    else if side .one then player1
    else background
  else if side .zero || score && covers .playfield && !rightHalf then player0
  else if side .one || score && covers .playfield && rightHalf then player1
  else if field then playfield
  else background

/-- The playfield modes as members of a set. -/
def ObjectSet.ofModes (score fieldFirst : Bool) : ObjectSet :=
  (if score then .scoreMode else 0) ||| if fieldFirst then .playfieldFirst else 0

theorem ColorSource.lookup_eq (rightHalf : Bool) (set : ObjectSet) :
    lookup rightHalf set = choose rightHalf set := by
  have hset := set.toNat_lt
  have hindex : (set.toNat + if rightHalf then 256 else 0) % 256 = set.toNat := by
    split <;> omega
  have hhalf : decide (256 ≤ set.toNat + if rightHalf then 256 else 0) = rightHalf := by
    cases rightHalf
    · simpa using hset
    · simp
  simp only [lookup, table, Vector.getElem_ofFn, hindex, hhalf, UInt8.ofNat_toNat]

theorem ColorSource.choose_eq {set : ObjectSet} (h : set.toNat < 64)
    (rightHalf score fieldFirst : Bool) :
    choose rightHalf (set ||| .ofModes score fieldFirst) =
      priority rightHalf score fieldFirst fun figure ↦ set.meets figure.member := by
  have hall : ∀ (number : Fin 64) (rightHalf score fieldFirst : Bool),
      choose rightHalf (UInt8.ofNat number ||| .ofModes score fieldFirst) =
        priority rightHalf score fieldFirst
          fun figure ↦ ObjectSet.meets (UInt8.ofNat number) figure.member := by
    decide +kernel
  have hset := hall ⟨set.toNat, h⟩ rightHalf score fieldFirst
  rwa [UInt8.ofNat_toNat] at hset

namespace Objects

/-- Where the colour of a column comes from. -/
def colorSource (o : Objects) (column : Nat) : ColorSource :=
  .priority (80 ≤ column) (o.registers.test .ctrlpf 0x02) (o.registers.test .ctrlpf 0x04)
    (o.covers column)

theorem Current.color_eq {o : Objects} (h : o.Current) {column : Nat} (hcolumn : column < columns) :
    o.color column (o.covering column) = o.registers.get (colorRegister (o.colorSource column)) := by
  have hmodes : o.modes =
      .ofModes (o.registers.test .ctrlpf 0x02) (o.registers.test .ctrlpf 0x04) := by
    have hvalue (value : UInt8) :
        (value &&& 0x06) <<< 5 = ObjectSet.ofModes (value &&& 0x02 != 0) (value &&& 0x04 != 0) :=
      forall_byte (p := fun value ↦ (value &&& 0x06) <<< 5 =
        ObjectSet.ofModes (value &&& 0x02 != 0) (value &&& 0x04 != 0)) (by decide +kernel) value
    exact (h.holds .modes List.not_mem_nil).trans (hvalue _)
  have hcovers : (fun figure ↦ (o.covering column).meets figure.member) = o.covers column := by
    funext figure
    exact h.covering_meets_eq hcolumn figure
  rw [color, hmodes, ColorSource.lookup_eq, ColorSource.choose_eq (o.covering_lt column), hcovers,
    colorSource]

end Objects

end Vcs.Tia
