/-!
# Horizontal Motion

How far a motion strobe moves an object.  The chip sends extra clock pulses to the objects, one every four
colour clocks, and compares each object's motion nibble as it goes.  Strobed at the start of a line the
pulses fall into the horizontal blank and every object moves as documented.  Later strobes lose pulses at
the front and, near the end of the line, run into the blank of the next one.
-/

namespace Vcs.Tia.Motion

/-- Documented motion of a nibble: positive numbers move right. -/
def documented (nibble : Nat) : Int :=
  if nibble < 8 then -nibble else 16 - nibble

/-- Pulses due by processor cycle `cycle` of the line. -/
def pulses (cycle : Nat) : Int :=
  (3 * cycle + 1) / 4

/-- Motion of an object when the strobe falls on processor cycle `cycle` of the line.  Up to cycle 20 the
leftward pulses already missed are a lower bound; in mid-line nothing moves; from cycle 55 on objects are
dragged left; and the last cycle is as good as the first of the next line. -/
def applied (cycle nibble : Nat) : Int :=
  let motion := documented nibble
  if cycle ≤ 20 then max motion (pulses cycle - 9)
  else if cycle < 55 then 0
  else if cycle < 75 then min 0 (motion + 47 - pulses cycle)
  else motion

/-- Whether a strobe on this cycle of the line blanks the first eight columns. -/
def blanksEdge (cycle : Nat) : Bool :=
  cycle ≤ 20 || cycle == 75

/-- Displacement of missile 0 on every line while the star field runs, by phase. -/
def starFieldStep (phase : UInt8) : Int :=
  match phase with
  | 0 => 18
  | 1 => 33
  | 2 => 0
  | _ => 17

/-- A position moved by some columns along the ring of 160. -/
def wrap (position : Int) : UInt8 :=
  UInt8.ofNat (position % 160).toNat

theorem wrap_lt (position : Int) : (wrap position).toNat < 160 := by
  have h0 := Int.emod_nonneg position (b := 160) (by decide)
  have h1 := Int.emod_lt_of_pos position (b := 160) (by decide)
  unfold wrap
  rw [UInt8.toNat_ofNat']
  omega

end Vcs.Tia.Motion
