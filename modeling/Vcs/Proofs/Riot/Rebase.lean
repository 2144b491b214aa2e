import Vcs.Riot.Basic

/-!
# The Timer under a Restarted Counter

The timer keeps two stamps, the cycle of its start and that of the first read after it has expired.  Both
move with the cycle counter, so that every register reads and writes as it would have done.
-/

namespace Vcs.Riot

namespace Timer

variable (timer : Timer) {count cycles : Nat} (h : count ≤ cycles)

include h

theorem elapsed_rebase : (timer.rebase count).elapsed (cycles - count) = timer.elapsed cycles := by
  simp only [elapsed, rebase]
  omega

theorem running_rebase : (timer.rebase count).running (cycles - count) = timer.running cycles := by
  have helapsed := timer.elapsed_rebase h
  unfold running
  rw [helapsed]
  rfl

theorem noteRead_rebase :
    (timer.rebase count).noteRead (cycles - count) = (timer.noteRead cycles).rebase count := by
  have hcycles : ((cycles - count : Nat) : Int) = cycles - count := by omega
  have hspan : (timer.rebase count).span = timer.span := rfl
  have hread : (timer.rebase count).expiredRead = timer.expiredRead := rfl
  simp only [noteRead, running_rebase timer h, elapsed_rebase timer h, hspan, hread, hcycles]
  split <;> rfl

theorem count_rebase : (timer.rebase count).count (cycles - count) = timer.count cycles := by
  have hspan : (timer.rebase count).span = timer.span := rfl
  have hread : (timer.rebase count).expiredRead = timer.expiredRead := rfl
  have hexpired : (timer.rebase count).expiredReadAt - ((timer.rebase count).setAt + timer.span) =
      timer.expiredReadAt - (timer.setAt + timer.span) := by
    simp only [rebase]
    omega
  have hinterval : (timer.rebase count).interval = timer.interval := rfl
  have hstart : (timer.rebase count).start = timer.start := rfl
  simp only [Timer.count, running_rebase timer h, elapsed_rebase timer h, hspan, hread, hexpired,
    hinterval, hstart]

theorem read_rebase :
    (timer.rebase count).read (cycles - count) =
      ((timer.read cycles).1, (timer.read cycles).2.rebase count) := by
  simp only [read, noteRead_rebase timer h, count_rebase (timer.noteRead cycles) h]

theorem interruptFlag_rebase :
    (timer.rebase count).interruptFlag (cycles - count) = timer.interruptFlag cycles := by
  have hread : (timer.rebase count).expiredRead = timer.expiredRead := rfl
  simp only [interruptFlag, running_rebase timer h, hread]

theorem restart_rebase (value : UInt8) (choice : UInt16) :
    (timer.rebase count).restart value choice (cycles - count) =
      (timer.restart value choice cycles).rebase count := by
  have hcycles : ((cycles - count : Nat) : Int) = cycles - count := by omega
  simp only [restart, rebase, hcycles]

end Timer

variable (riot : Riot) {count cycles : Nat} (h : count ≤ cycles)

include h

theorem read_rebase (ports : Ports) (switches : ConsoleSwitches) (address : UInt16) :
    (riot.rebase count).read (cycles - count) ports switches address =
      ((riot.read cycles ports switches address).1,
        (riot.read cycles ports switches address).2.rebase count) := by
  have htimer : (riot.rebase count).timer = riot.timer.rebase count := rfl
  simp only [read, htimer, Timer.read_rebase riot.timer h, Timer.interruptFlag_rebase riot.timer h]
  split <;> rfl

theorem write_rebase (address : UInt16) (value : UInt8) :
    (riot.rebase count).write (cycles - count) address value =
      ((riot.write cycles address value).1.rebase count, (riot.write cycles address value).2) := by
  have htimer : (riot.rebase count).timer = riot.timer.rebase count := rfl
  simp only [write, htimer, Timer.restart_rebase riot.timer h]
  split
  · rfl
  · rfl
  · rfl
  · rfl
  · split <;> rfl

end Vcs.Riot
