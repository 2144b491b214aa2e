import Vcs.Tia.Row

/-!
# Object Masks

Which columns an object covers.  For every shape an object can take its pattern at position zero is laid
out on a row; the table keeps that row twice over, in four alignments, each one column further right.  A
descriptor selects a row of the table and an offset into it, so that sliding a pattern to any position is
one addition.
-/

namespace Vcs.Tia

/-- Cells of a table row: two scanlines' worth, so that an offset never runs off it. -/
abbrev rowCells : Nat := 2 * columns

/-- Offsets of the copies that a size mode draws beside each other. -/
def copyOffsets (mode : Nat) : List Nat :=
  match mode % 8 with
  | 1 => [0, 16]
  | 2 => [0, 32]
  | 3 => [0, 16, 32]
  | 4 => [0, 64]
  | 6 => [0, 32, 64]
  | _ => [0]

/-- Columns for which a player shows each of its eight bits. -/
def playerScale (mode : Nat) : Nat :=
  match mode % 8 with
  | 5 => 2
  | 7 => 4
  | _ => 1

/-- The ball: `2 ^ size` columns. -/
def ballRow (size : Nat) : Row Bool :=
  (Row.blank false).paint 0 (fun _ ↦ true) (1 <<< size)

/-- A missile: `2 ^ size` columns in every copy. -/
def missileRow (mode size : Nat) : Row Bool :=
  (Row.blank false).paintAll (copyOffsets mode) (fun _ ↦ true) (1 <<< size)

/-- The bit of the graphic shown `i` columns into a player, the leftmost being the highest. -/
def graphicBit (scale i : Nat) : UInt8 :=
  0x80 >>> UInt8.ofNat (i / scale)

/-- A player, as the bit of the graphic that each column shows.  Wide players start one column late and
have no copies.  With `skipFirst` the copy at the position itself is left out. -/
def playerRow (skipFirst : Bool) (mode : Nat) : Row UInt8 :=
  let scale := playerScale mode
  if scale = 1 then
    let copies := copyOffsets mode
    (Row.blank 0).paintAll (if skipFirst then copies.tail else copies) (graphicBit 1) 8
  else if skipFirst then Row.blank 0
  else (Row.blank 0).paint 1 (graphicBit scale) (8 * scale)

/-- Shapes of an object by number, with the row of each. -/
structure ShapeTable (α : Type) where
  shapes : Nat
  cells : Array α

namespace ShapeTable

variable {α : Type}

/-- Doubles every row and repeats it in four alignments. -/
def build (shapes : Nat) (row : Fin shapes → Row α) : ShapeTable α where
  shapes := shapes
  cells :=
    let rows := Vector.ofFn row
    Array.ofFn (n := 4 * shapes * rowCells) fun i ↦
      let line := i.val / rowCells
      have : line % shapes < shapes := by
        apply Nat.mod_lt
        rcases shapes with _ | n
        · exact absurd i.isLt (by simp)
        · exact Nat.succ_pos n
      let column := i.val % rowCells + columns - line / shapes
      have : column % columns < columns := Nat.mod_lt _ (by decide)
      rows[line % shapes][column % columns]

/-- The cell at an index, or a given one beyond the end. -/
@[inline]
def cell (table : ShapeTable α) (index : Nat) (missing : α) : α :=
  table.cells.getD index missing

end ShapeTable

/-- Ball shapes are its four sizes. -/
def ballTable : ShapeTable Bool :=
  .build 4 fun shape ↦ ballRow shape

/-- Missile shapes are eight modes of four sizes. -/
def missileTable : ShapeTable Bool :=
  .build 32 fun shape ↦ missileRow (shape / 4) (shape % 4)

/-- Player shapes are eight modes, first with all copies and then without the first. -/
def playerTable : ShapeTable UInt8 :=
  .build 16 fun shape ↦ playerRow (8 ≤ shape.val) (shape % 8)

/-- Selects a row of a table and an offset into it. -/
structure Mask where
  /-- The position modulo four. -/
  alignment : UInt8 := 0
  /-- Number of the shape. -/
  shape : UInt8 := 0
  /-- Columns by which the row is slid; zero until the object is first placed. -/
  offset : UInt8 := 0
  deriving DecidableEq, Repr, Inhabited

namespace Mask

/-- A shape at a position. -/
def place (position shape : UInt8) : Mask where
  alignment := position &&& 0x03
  shape := shape
  offset := 160 - (position &&& 0xFC)

/-- A player, without the copy at its position if `skipFirst`. -/
def player (position : UInt8) (skipFirst : Bool) (mode : UInt8) : Mask :=
  place position ((if skipFirst then 8 else 0) + (mode &&& 7))

/-- A missile of `2 ^ size` columns. -/
def missile (position mode size : UInt8) : Mask :=
  place position ((mode &&& 7) * 4 + (size &&& 3))

/-- A ball of `2 ^ size` columns. -/
def ball (position size : UInt8) : Mask :=
  place position (size &&& 3)

/-- Where a table of `shapes` shapes answers for a column. -/
@[inline]
def index (mask : Mask) (shapes column : Nat) : Nat :=
  (mask.alignment.toNat * shapes + mask.shape.toNat) * rowCells + mask.offset.toNat + column

/-- Whether the ball covers a column. -/
@[inline]
def coversBall (mask : Mask) (column : Nat) : Bool :=
  ballTable.cell (mask.index 4 column) false

/-- Whether a missile covers a column. -/
@[inline]
def coversMissile (mask : Mask) (column : Nat) : Bool :=
  missileTable.cell (mask.index 32 column) false

/-- The bit of its graphic that a player shows in a column, or none. -/
@[inline]
def playerBit (mask : Mask) (column : Nat) : UInt8 :=
  playerTable.cell (mask.index 16 column) 0

end Mask

end Vcs.Tia
