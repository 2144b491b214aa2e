/-!
# ChaCha Keystream

The ChaCha block function with twelve rounds, and its blocks laid end to end as one endless sequence of
words.  The sequence is a function of the key and the position, so a reader of it is just a position.
-/

namespace Vcs.Random

/-- Sixteen words: constants, key, counter and stream. -/
abbrev ChaChaState := Vector UInt32 16

/-- Eight words of key. -/
abbrev Key := Vector UInt32 8

namespace ChaCha

@[inline]
def rotateLeft (word : UInt32) (count : UInt32) : UInt32 :=
  (word <<< count) ||| (word >>> (32 - count))

/-- Mixes four words of the state. -/
def quarterRound (s : ChaChaState) (a b c d : Fin 16) : ChaChaState :=
  let s := s.set a (s[a] + s[b])
  let s := s.set d (rotateLeft (s[d] ^^^ s[a]) 16)
  let s := s.set c (s[c] + s[d])
  let s := s.set b (rotateLeft (s[b] ^^^ s[c]) 12)
  let s := s.set a (s[a] + s[b])
  let s := s.set d (rotateLeft (s[d] ^^^ s[a]) 8)
  let s := s.set c (s[c] + s[d])
  s.set b (rotateLeft (s[b] ^^^ s[c]) 7)

/-- A round on the columns of the state and one on its diagonals. -/
def doubleRound (s : ChaChaState) : ChaChaState :=
  let s := quarterRound s 0 4 8 12
  let s := quarterRound s 1 5 9 13
  let s := quarterRound s 2 6 10 14
  let s := quarterRound s 3 7 11 15
  let s := quarterRound s 0 5 10 15
  let s := quarterRound s 1 6 11 12
  let s := quarterRound s 2 7 8 13
  quarterRound s 3 4 9 14

/-- Some double rounds in a row. -/
def doubleRounds (s : ChaChaState) : (count : Nat) → ChaChaState
  | 0 => s
  | count + 1 => doubleRounds (doubleRound s) count

/-- The state a block starts from.  The counter takes two words; the stream is zero. -/
def initial (key : Key) (counter : Nat) : ChaChaState :=
  #v[0x61707865, 0x3320646e, 0x79622d32, 0x6b206574,
    key[0], key[1], key[2], key[3], key[4], key[5], key[6], key[7],
    UInt32.ofNat counter, UInt32.ofNat (counter / UInt32.size), 0, 0]

/-- A block of keystream. -/
def block (key : Key) (counter : Nat) : ChaChaState :=
  let start := initial key counter
  (doubleRounds start 6).zipWith (· + ·) start

/-- One word of the keystream. -/
def word (key : Key) (position : Nat) : UInt32 :=
  (block key (position / 16))[position % 16]

end ChaCha

end Vcs.Random
