/-!
# Interval Timer

The timer is not stepped.  It remembers the value it was started at, how long it stays on each value and
the cycle of the start, and derives its count when it is read.  Having counted down to zero it expires,
and from then on the count falls once in every cycle.
-/

namespace Vcs.Riot

/-- The interval timer. -/
structure Timer where
  /-- Value the timer was started at. -/
  start : UInt8 := 0
  /-- Logarithm to base two of the cycles spent on each value. -/
  shift : Nat := 6
  /-- Cycle of the start. -/
  setAt : Int := 0
  /-- Cycle of the first read after the timer had expired. -/
  expiredReadAt : Int := 0
  /-- The timer has been read since it expired. -/
  expiredRead : Bool := false
  deriving DecidableEq, Repr

namespace Timer

/-- Cycles spent on each value. -/
def interval (timer : Timer) : Nat :=
  1 <<< timer.shift

/-- Logarithms of the four intervals a program can choose. -/
def shiftOf (choice : UInt16) : Nat :=
  match choice &&& 3 with
  | 0 => 0
  | 1 => 3
  | 2 => 6
  | _ => 10

/-- Starts the timer anew. -/
def restart (timer : Timer) (value : UInt8) (choice : UInt16) (cycles : Nat) : Timer :=
  { timer with start := value, shift := shiftOf choice, setAt := cycles, expiredRead := false }

/-- Cycles since the start, not counting the first. -/
def elapsed (timer : Timer) (cycles : Nat) : Int :=
  cycles - 1 - timer.setAt

/-- The count while the timer runs; negative once it has expired. -/
def running (timer : Timer) (cycles : Nat) : Int :=
  timer.start.toNat - timer.elapsed cycles / timer.interval - 1

/-- The cycles for which the timer runs. -/
def span (timer : Timer) : Int :=
  timer.start.toNat * timer.interval

/-- Takes note of a read.  The first one more than a cycle after the timer has expired is remembered. -/
def noteRead (timer : Timer) (cycles : Nat) : Timer :=
  if timer.running cycles < 0 ∧ timer.span - timer.elapsed cycles - 1 ≤ -2 ∧
      timer.expiredRead = false then
    { timer with expiredRead := true, expiredReadAt := cycles }
  else timer

/-- The count as a number, a read on that cycle having been noted. -/
def count (timer : Timer) (cycles : Nat) : Int :=
  if 0 ≤ timer.running cycles then timer.running cycles
  else if timer.expiredRead then
    timer.start.toNat - timer.elapsed cycles / timer.interval -
      (timer.expiredReadAt - (timer.setAt + timer.span))
  else timer.span - timer.elapsed cycles - 1

/-- Reads the timer. -/
def read (timer : Timer) (cycles : Nat) : UInt8 × Timer :=
  let timer := timer.noteRead cycles
  (UInt8.ofInt (timer.count cycles), timer)

/-- Bit 7 from the moment the timer has expired until it is read. -/
def interruptFlag (timer : Timer) (cycles : Nat) : UInt8 :=
  if 0 ≤ timer.running cycles || timer.expiredRead then 0x00 else 0x80

/-- Moves the stamps back. -/
def rebase (timer : Timer) (cycles : Nat) : Timer :=
  { timer with setAt := timer.setAt - cycles, expiredReadAt := timer.expiredReadAt - cycles }

end Timer

end Vcs.Riot
