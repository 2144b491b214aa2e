import Vcs.Random.ChaCha

/-!
# Random Numbers

A reproducible source of random numbers: a seed is stretched into a key, the keystream of that key is read
word by word, and numbers below a bound are drawn from it without favouring any.
-/

namespace Vcs.Random

/-- A reader of the keystream. -/
structure Generator where
  key : Key
  /-- Words read so far. -/
  position : Nat := 0

namespace Generator

/-- The next state of the congruential sequence that stretches a seed. -/
def stretch (state : UInt64) : UInt64 :=
  state * 6364136223846793005 + 11634580027462260723

/-- The word that a state of that sequence gives: a permutation of its bits, turned by its top five. -/
def outputWord (state : UInt64) : UInt32 :=
  let mixed := (((state >>> 18) ^^^ state) >>> 27).toUInt32
  let turn := (state >>> 59).toUInt32
  (mixed >>> turn) ||| (mixed <<< ((32 - turn) &&& 31))

/-- State of the stretching sequence after some steps. -/
def stretched (seed : UInt64) : (steps : Nat) → UInt64
  | 0 => seed
  | steps + 1 => stretch (stretched seed steps)

/-- A generator at the start of the keystream of a seed. -/
def ofSeed (seed : UInt64) : Generator where
  key := .ofFn fun i ↦ outputWord (stretched seed (i + 1))

/-- Reads a word. -/
def next (generator : Generator) : UInt32 × Generator :=
  (ChaCha.word generator.key generator.position,
    { generator with position := generator.position + 1 })

/-- Lower halves above this one would favour small numbers. -/
def fairLimit (bound : Nat) : Nat :=
  UInt32.size - 1 - (UInt32.size - bound) % bound

/-- Draws a number below a bound, passing over at most `tries` words that would favour small numbers. -/
def drawWithin (generator : Generator) (bound : Nat) : (tries : Nat) → Nat × Generator
  | 0 =>
    let (word, generator) := generator.next
    (word.toNat * bound / UInt32.size, generator)
  | tries + 1 =>
    let (word, generator) := generator.next
    let product := word.toNat * bound
    if product % UInt32.size ≤ fairLimit bound then (product / UInt32.size, generator)
    else generator.drawWithin bound tries

/-- Draws a number below a bound.  For the bounds in use a word is passed over less than once in ten
million draws, so that the limit on them is never reached. -/
def draw (generator : Generator) (bound : Nat) : Nat × Generator :=
  generator.drawWithin bound 256

/-- Draws several numbers below a bound, as bytes. -/
def drawBytes (generator : Generator) (bound : Nat) : (count : Nat) → ByteArray × Generator
  | 0 => (ByteArray.empty, generator)
  | count + 1 =>
    let (bytes, generator) := generator.drawBytes bound count
    let (value, generator) := generator.draw bound
    (bytes.push (UInt8.ofNat value), generator)

theorem drawWithin_lt (generator : Generator) {bound : Nat} (h : 0 < bound) (tries : Nat) :
    (generator.drawWithin bound tries).1 < bound := by
  have hw (w : UInt32) : w.toNat * bound / UInt32.size < bound := by
    rw [Nat.div_lt_iff_lt_mul (by decide), Nat.mul_comm]
    exact Nat.mul_lt_mul_of_pos_left w.toNat_lt h
  induction tries generalizing generator with
  | zero => exact hw _
  | succ tries ih =>
    unfold drawWithin
    dsimp only
    split
    · exact hw _
    · exact ih _

end Generator

end Vcs.Random
