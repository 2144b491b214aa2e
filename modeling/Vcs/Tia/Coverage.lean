/-!
# Coverage, Collisions and Priority

Which of the six objects cover a pixel, as a set of bits, and what follows from it: the collision latches
of every pair in the set, and the colour register the pixel is drawn in.
-/

namespace Vcs.Tia

/-- A set of objects, one bit each; two further bits hold the playfield modes where priority is decided. -/
abbrev ObjectSet := UInt8

namespace ObjectSet

def player0 : ObjectSet := 0x01
def missile0 : ObjectSet := 0x02
def player1 : ObjectSet := 0x04
def missile1 : ObjectSet := 0x08
def ball : ObjectSet := 0x10
def playfield : ObjectSet := 0x20
/-- The halves of the playfield take the colours of the players. -/
def scoreMode : ObjectSet := 0x40
/-- Playfield and ball are drawn in front of the players. -/
def playfieldFirst : ObjectSet := 0x80

/-- Whether the set shares a member with another one. -/
@[inline]
def meets (set other : ObjectSet) : Bool :=
  set &&& other != 0

/-- Adds the members of another set, or takes them out. -/
@[inline]
def put (set members : ObjectSet) (present : Bool) : ObjectSet :=
  if present then set ||| members else set &&& ~~~members

end ObjectSet

/-! ## Collisions -/

namespace Collision

/-- Every pair of objects with the latch that their meeting sets. -/
def pairs : List (ObjectSet × ObjectSet × UInt16) :=
  [(.missile0, .player1, 0x0001),
    (.missile0, .player0, 0x0002),
    (.missile1, .player0, 0x0004),
    (.missile1, .player1, 0x0008),
    (.player0, .playfield, 0x0010),
    (.player0, .ball, 0x0020),
    (.player1, .playfield, 0x0040),
    (.player1, .ball, 0x0080),
    (.missile0, .playfield, 0x0100),
    (.missile0, .ball, 0x0200),
    (.missile1, .playfield, 0x0400),
    (.missile1, .ball, 0x0800),
    (.ball, .playfield, 0x1000),
    (.player0, .player1, 0x2000),
    (.missile0, .missile1, 0x4000)]

/-- Latches that a set of objects on one pixel sets. -/
def latches (set : ObjectSet) : UInt16 :=
  pairs.foldl
    (fun bits (first, second, latch) ↦
      if set.meets first && set.meets second then bits ||| latch else bits)
    0

/-- The latches of all 64 sets. -/
def table : Vector UInt16 64 :=
  .ofFn fun set ↦ latches (UInt8.ofNat set)

/-- Latches that a set of objects on one pixel sets, looked up. -/
@[inline]
def lookup (set : ObjectSet) : UInt16 :=
  table[set.toNat % 64]

/-- The latches that a collision register reports in its bits 7 and 6. -/
def reported (register : UInt8) : UInt16 × UInt16 :=
  match register &&& 7 with
  | 0 => (0x0001, 0x0002)
  | 1 => (0x0004, 0x0008)
  | 2 => (0x0010, 0x0020)
  | 3 => (0x0040, 0x0080)
  | 4 => (0x0100, 0x0200)
  | 5 => (0x0400, 0x0800)
  | 6 => (0x1000, 0)
  | _ => (0x2000, 0x4000)

end Collision

/-! ## Priority -/

/-- The four colour registers. -/
inductive ColorSource where
  | background
  | playfield
  | player0
  | player1
  deriving DecidableEq, Repr, Inhabited

namespace ColorSource

/-- Number of the source. -/
def number : ColorSource → Nat
  | background => 0
  | playfield => 1
  | player0 => 2
  | player1 => 3

/-- Colour of a set of objects in the usual order: players with their missiles, the first in front, then
playfield and ball.  In score mode a half of the playfield counts as that half's player. -/
def playersFirst (rightHalf : Bool) (set : ObjectSet) : ColorSource :=
  let score := set.meets .playfield && set.meets .scoreMode
  if set.meets (.player0 ||| .missile0) then player0
  else if score && !rightHalf then player0
  else if set.meets (.player1 ||| .missile1) then player1
  else if score then player1
  else if set.meets (.ball ||| .playfield) then playfield
  else background

/-- Colour of a set of objects when playfield and ball are in front. -/
def playfieldFirst (set : ObjectSet) : ColorSource :=
  if set.meets (.ball ||| .playfield) then playfield
  else if set.meets (.player0 ||| .missile0) then player0
  else if set.meets (.player1 ||| .missile1) then player1
  else background

/-- Colour of a set of objects, the playfield modes being members of it. -/
def choose (rightHalf : Bool) (set : ObjectSet) : ColorSource :=
  if set.meets .playfieldFirst then playfieldFirst set else playersFirst rightHalf set

/-- The choice for all sets, the left half first. -/
def table : Vector ColorSource 512 :=
  .ofFn fun i ↦ choose (256 ≤ i.val) (UInt8.ofNat (i % 256))

/-- Colour of a set of objects, looked up. -/
@[inline]
def lookup (rightHalf : Bool) (set : ObjectSet) : ColorSource :=
  have bound : (set.toNat + if rightHalf then 256 else 0) < 512 := by
    have := set.toNat_lt
    split <;> omega
  table[set.toNat + if rightHalf then 256 else 0]

end ColorSource

end Vcs.Tia
