import Vcs.Tia.Coverage
import Vcs.Tia.Mask
import Vcs.Tia.Motion
import Vcs.Tia.Register

/-!
# Objects

Everything that decides what a column shows: the stored registers, the positions of the five movable
objects, and what is derived from them, namely the playfield, the masks, the graphics after delay and
reflection, and the set of objects that are enabled at all.
-/

namespace Vcs.Tia

/-- One of the two players or missiles. -/
inductive Which where
  | zero
  | one
  deriving DecidableEq, Repr

/-- Two things of a kind. -/
structure Pair (α : Type) where
  zero : α
  one : α

namespace Pair

variable {α : Type}

@[inline]
def get (pair : Pair α) : Which → α
  | .zero => pair.zero
  | .one => pair.one

@[inline]
def modify (pair : Pair α) (which : Which) (change : α → α) : Pair α :=
  match which with
  | .zero => { pair with zero := change pair.zero }
  | .one => { pair with one := change pair.one }

end Pair

/-- A player: eight bits of graphic, drawn in up to three copies. -/
structure Player where
  position : UInt8 := 0
  mask : Mask := {}
  /-- The graphic after vertical delay and reflection. -/
  graphic : UInt8 := 0
  /-- The graphic that vertical delay shows. -/
  delayed : UInt8 := 0

/-- A missile: a short line, drawn in up to three copies. -/
structure Missile where
  position : UInt8 := 0
  /-- Nothing while the star field hides the missile. -/
  mask : Option Mask := some {}

/-- The ball: a short line. -/
structure Ball where
  position : UInt8 := 0
  mask : Mask := {}
  /-- Whether vertical delay shows the ball. -/
  delayed : Bool := false

/-- Missile 0 runs away when its motion is changed right behind a motion strobe: it keeps moving on every
line, and is stretched, hidden and normal in turn. -/
structure StarField where
  armed : Bool := false
  phase : UInt8 := 0

/-- State of the objects. -/
structure Objects where
  registers : RegisterFile := {}
  /-- The twenty playfield bits, in the order `PF0`, `PF1`, `PF2`. -/
  playfield : UInt32 := 0
  /-- The playfield modes, as members of the set that decides priority. -/
  modes : ObjectSet := 0
  enabled : ObjectSet := 0
  players : Pair Player := ⟨{}, {}⟩
  missiles : Pair Missile := ⟨{}, {}⟩
  ball : Ball := {}
  starField : StarField := {}

namespace Which

def player : Which → ObjectSet
  | zero => .player0
  | one => .player1

def missile : Which → ObjectSet
  | zero => .missile0
  | one => .missile1

def nusiz : Which → Register
  | zero => .nusiz0
  | one => .nusiz1

def refp : Which → Register
  | zero => .refp0
  | one => .refp1

def grp : Which → Register
  | zero => .grp0
  | one => .grp1

def vdelp : Which → Register
  | zero => .vdelp0
  | one => .vdelp1

def enam : Which → Register
  | zero => .enam0
  | one => .enam1

def resmp : Which → Register
  | zero => .resmp0
  | one => .resmp1

end Which

/-- The bits of a byte in reverse. -/
def reflect (value : UInt8) : UInt8 :=
  let v := ((value &&& 0xF0) >>> 4) ||| ((value &&& 0x0F) <<< 4)
  let v := ((v &&& 0xCC) >>> 2) ||| ((v &&& 0x33) <<< 2)
  ((v &&& 0xAA) >>> 1) ||| ((v &&& 0x55) <<< 1)

/-- The playfield bit shown in a column.  Each of the forty blocks is four columns wide; the right half
repeats the left one or reflects it, and the second of the three registers runs backwards. -/
def playfieldBit (reflected : Bool) (column : Nat) : Nat :=
  let block := column / 4
  let block := if block < 20 then block else if reflected then 39 - block else block - 20
  if 4 ≤ block && block < 12 then 15 - block else block

namespace Objects

/-- Whether the playfield covers a column. -/
@[inline]
def showsPlayfield (o : Objects) (column : Nat) : Bool :=
  (o.playfield >>> UInt32.ofNat (playfieldBit (o.registers.test .ctrlpf 0x01) column)) &&& 1 != 0

/-- Whether a player's graphic has a bit for a column. -/
@[inline]
def showsPlayer (player : Player) (column : Nat) : Bool :=
  player.graphic &&& player.mask.playerBit column != 0

/-- Whether a missile covers a column. -/
@[inline]
def showsMissile (missile : Missile) (column : Nat) : Bool :=
  match missile.mask with
  | none => false
  | some mask => mask.coversMissile column

/-- Members of a set if they are enabled and cover the column in question. -/
@[inline]
def present (o : Objects) (members : ObjectSet) (covers : Unit → Bool) : ObjectSet :=
  if o.enabled.meets members && covers () then members else 0

/-- The objects that cover a column. -/
def covering (o : Objects) (column : Nat) : ObjectSet :=
  if o.enabled = 0 then 0
  else
    o.present .playfield (fun _ ↦ o.showsPlayfield column) |||
    o.present .ball (fun _ ↦ o.ball.mask.coversBall column) |||
    o.present .player1 (fun _ ↦ showsPlayer o.players.one column) |||
    o.present .missile1 (fun _ ↦ showsMissile o.missiles.one column) |||
    o.present .player0 (fun _ ↦ showsPlayer o.players.zero column) |||
    o.present .missile0 (fun _ ↦ showsMissile o.missiles.zero column)

/-- The register a colour comes from. -/
@[inline]
def colorRegister : ColorSource → Register
  | .background => .colubk
  | .playfield => .colupf
  | .player0 => .colup0
  | .player1 => .colup1

/-- Colour of a column covered by these objects. -/
@[inline]
def color (o : Objects) (column : Nat) (set : ObjectSet) : UInt8 :=
  o.registers.get (colorRegister (ColorSource.lookup (80 ≤ column) (set ||| o.modes)))

/-- Size mode of a player and its missile. -/
@[inline]
def sizeMode (o : Objects) (which : Which) : UInt8 :=
  o.registers.get which.nusiz &&& 0x07

/-- Width class of a missile. -/
@[inline]
def missileSize (o : Objects) (which : Which) : UInt8 :=
  (o.registers.get which.nusiz &&& 0x30) >>> 4

/-- Enables or disables objects. -/
@[inline]
def setEnabled (o : Objects) (members : ObjectSet) (on : Bool) : Objects :=
  { o with enabled := o.enabled.put members on }

/-- Gives a player the mask of its position, all copies included. -/
def refreshPlayerMask (o : Objects) (which : Which) : Objects :=
  let mode := o.sizeMode which
  { o with
    players := o.players.modify which fun player ↦
      { player with mask := .player player.position false mode } }

/-- Gives a missile the mask of its position. -/
def refreshMissileMask (o : Objects) (which : Which) : Objects :=
  let mode := o.sizeMode which
  let size := o.missileSize which
  { o with
    missiles := o.missiles.modify which fun missile ↦
      { missile with mask := some (.missile missile.position mode size) } }

/-- Gives the ball the mask of its position. -/
def refreshBallMask (o : Objects) : Objects :=
  let size := (o.registers.get .ctrlpf &&& 0x30) >>> 4
  { o with ball := { o.ball with mask := .ball o.ball.position size } }

/-- Assembles the playfield from its three registers. -/
def refreshPlayfield (o : Objects) : Objects :=
  let bits : UInt32 :=
    (o.registers.get .pf0 >>> 4).toUInt32 |||
      ((o.registers.get .pf1).toUInt32 <<< 4) ||| ((o.registers.get .pf2).toUInt32 <<< 12)
  { o with playfield := bits }.setEnabled .playfield (bits != 0)

/-- Derives a player's graphic from its register, the vertical delay and the reflection. -/
def refreshGraphic (o : Objects) (which : Which) : Objects :=
  let plain :=
    if o.registers.test which.vdelp 0x01 then (o.players.get which).delayed
    else o.registers.get which.grp
  let graphic := if o.registers.test which.refp 0x08 then reflect plain else plain
  { o with
    players := o.players.modify which fun player ↦ { player with graphic := graphic } }.setEnabled
    which.player (graphic != 0)

/-- A missile is enabled unless it is locked to its player. -/
def refreshMissileEnable (o : Objects) (which : Which) : Objects :=
  o.setEnabled which.missile
    (o.registers.test which.enam 0x02 && !o.registers.test which.resmp 0x02)

/-- The ball is enabled by its register or, delayed, by what that was. -/
def refreshBallEnable (o : Objects) : Objects :=
  o.setEnabled .ball <|
    if o.registers.test .vdelbl 0x01 then o.ball.delayed else o.registers.test .enabl 0x02

/-- Puts a player on a column. -/
def placePlayer (o : Objects) (which : Which) (position : UInt8) (skipFirst : Bool) : Objects :=
  let mode := o.sizeMode which
  { o with
    players := o.players.modify which fun player ↦
      { player with position := position, mask := .player position skipFirst mode } }

/-- Puts a missile on a column. -/
def placeMissile (o : Objects) (which : Which) (position : UInt8) : Objects :=
  { o with
    missiles := o.missiles.modify which fun missile ↦
      { missile with position := position } }.refreshMissileMask which

/-- Puts the ball on a column. -/
def placeBall (o : Objects) (position : UInt8) : Objects :=
  { o with ball := { o.ball with position := position } }.refreshBallMask

/-- A position after a motion strobe, by the upper nibble of the motion register. -/
def movedBy (o : Objects) (cycle : Nat) (position : UInt8) (motion : Register) : UInt8 :=
  Motion.wrap (position.toNat + Motion.applied cycle (o.registers.get motion >>> 4).toNat)

/-- Moves every object, the strobe falling on processor cycle `cycle` of the line. -/
def move (o : Objects) (cycle : Nat) : Objects :=
  let player0 := o.movedBy cycle o.players.zero.position .hmp0
  let player1 := o.movedBy cycle o.players.one.position .hmp1
  let missile0 := o.movedBy cycle o.missiles.zero.position .hmm0
  let missile1 := o.movedBy cycle o.missiles.one.position .hmm1
  let ball := o.movedBy cycle o.ball.position .hmbl
  let o := (o.placePlayer .zero player0 false).placePlayer .one player1 false
  let o := (o.placeMissile .zero missile0).placeMissile .one missile1
  { o.placeBall ball with starField := { o.starField with armed := false } }

/-- One line of the star field. -/
def stepStarField (o : Objects) : Objects :=
  let phase := (o.starField.phase + 1) &&& 3
  let position := Motion.wrap (o.missiles.zero.position.toNat - Motion.starFieldStep phase)
  let mode := o.sizeMode .zero
  let size := o.missileSize .zero
  let mask : Option Mask :=
    match phase with
    | 1 => some (.missile position mode (size ||| 1))
    | 2 => none
    | _ => some (.missile position mode size)
  { o with
    starField := { o.starField with phase := phase }
    missiles := { o.missiles with zero := { position := position, mask := mask } } }

/-- At the end of a line every copy of the players is due again and the star field moves on. -/
def endLine (o : Objects) : Objects :=
  let o := (o.refreshPlayerMask .zero).refreshPlayerMask .one
  if o.starField.armed then o.stepStarField else o

end Objects

end Vcs.Tia
