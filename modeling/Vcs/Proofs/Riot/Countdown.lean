import Mathlib.Algebra.Order.Ring.Int
import Vcs.Riot.Basic

/-!
# Counting Down

A program starts the timer at a value and an interval and asks for the count whenever it likes.  The timer
runs while that many intervals last.  Up to the last cycle of them a read answers how many intervals are
left, and from the cycle after it the flag is up, until the timer is read more than a cycle late.

Cycles are counted here on from the start of the timer when the cycle counter drops.  Main statements: what
the timer and its flag answer while the timer runs, and the flag behind that, after any reads, writes to other
registers and restarts of the counter; and what the first read behind the end answers.  It should have fallen
by one in every cycle.  It has as long as the read comes within an interval of the end: the read changes the
rule of counting before it answers, and the new rule takes one more off for each whole interval.
-/

namespace Vcs.Riot

/-- Whether the count is read at an address. -/
def readsTimer (address : UInt16) : Bool :=
  address &&& 0x07 = 4 || address &&& 0x07 = 6

/-- Whether the flag is read at an address. -/
def readsFlag (address : UInt16) : Bool :=
  address &&& 0x07 = 5 || address &&& 0x07 = 7

/-- Whether a write to an address starts the timer. -/
def startsTimer (address : UInt16) : Bool :=
  0x14 ≤ address &&& 0x17

/-- Logarithm of the interval at which a write to an address starts the timer. -/
def shiftAt (address : UInt16) : Nat :=
  Timer.shiftOf (address &&& 0x03)

theorem read_of_readsTimer (riot : Riot) {address : UInt16} (h : readsTimer address) (cycles : Nat)
    (ports : Ports) (switches : ConsoleSwitches) :
    riot.read cycles ports switches address =
      ((riot.timer.read cycles).1, { riot with timer := (riot.timer.read cycles).2 }) := by
  simp only [readsTimer, Bool.or_eq_true, decide_eq_true_eq] at h
  rcases h with h | h <;> simp only [read, h]

theorem read_of_readsFlag (riot : Riot) {address : UInt16} (h : readsFlag address) (cycles : Nat)
    (ports : Ports) (switches : ConsoleSwitches) :
    riot.read cycles ports switches address = (riot.timer.interruptFlag cycles, riot) := by
  simp only [readsFlag, Bool.or_eq_true, decide_eq_true_eq] at h
  rcases h with h | h
  · simp only [read, h]
    rfl
  · simp only [read, h]
    rfl

/-- No other register touches the timer when it is read. -/
theorem read_timer_of_not_readsTimer (riot : Riot) {address : UInt16} (h : readsTimer address = false)
    (cycles : Nat) (ports : Ports) (switches : ConsoleSwitches) :
    (riot.read cycles ports switches address).2.timer = riot.timer := by
  simp only [readsTimer, Bool.or_eq_false_iff, decide_eq_false_iff_not] at h
  unfold read
  split
  · rfl
  · rfl
  · rfl
  · rfl
  · next hfour => exact absurd hfour h.1
  · next hsix => exact absurd hsix h.2
  · rfl

theorem four_le_of_startsTimer {address : UInt16} (h : startsTimer address) : 4 ≤ address &&& 0x07 := by
  have hmask : address &&& 0x07 = address &&& 0x17 &&& 0x07 := by
    rw [UInt16.and_assoc]
    rfl
  have hlow : 0x14 ≤ address &&& 0x17 := of_decide_eq_true h
  have hhigh : address &&& 0x17 ≤ 0x17 := UInt16.and_le_right
  rw [hmask]
  generalize address &&& 0x17 = bits at hlow hhigh
  have hbits : bits = 0x14 ∨ bits = 0x15 ∨ bits = 0x16 ∨ bits = 0x17 := by
    simp only [← UInt16.toNat_inj, UInt16.le_iff_toNat_le, UInt16.reduceToNat] at *
    omega
  rcases hbits with rfl | rfl | rfl | rfl <;> decide

theorem write_of_startsTimer (riot : Riot) {address : UInt16} (h : startsTimer address)
    (cycles : Nat) (value : UInt8) :
    (riot.write cycles address value).1.timer =
      riot.timer.restart value (address &&& 0x03) cycles := by
  have hhigh := four_le_of_startsTimer h
  have hlow : 0x14 ≤ address &&& 0x17 := of_decide_eq_true h
  unfold write
  split
  · next hzero => simp [hzero] at hhigh
  · next hone => simp [hone] at hhigh
  · next htwo => simp [htwo] at hhigh
  · next hthree => simp [hthree] at hhigh
  · rw [if_pos hlow]

theorem write_timer_of_not_startsTimer (riot : Riot) {address : UInt16}
    (h : startsTimer address = false) (cycles : Nat) (value : UInt8) :
    (riot.write cycles address value).1.timer = riot.timer := by
  have hlow : ¬ 0x14 ≤ address &&& 0x17 := of_decide_eq_false h
  unfold write
  split
  · rfl
  · rfl
  · rfl
  · rfl
  · rw [if_neg hlow]

theorem toNat_ofInt (number : Int) : ((UInt8.ofInt number).toNat : Int) = number % 256 := by
  rw [UInt8.ofInt, UInt8.toNat_ofNat']
  omega

/-- Cycles for which a timer runs. -/
def spanOf (value : UInt8) (shift : Nat) : Nat :=
  value.toNat * 2 ^ shift

/-- A timer that was started on the cycle `since`; `late` says whether it has been read more than a cycle after
its end. -/
structure Timer.Counts (timer : Timer) (value : UInt8) (shift : Nat) (since : Int) (late : Bool) :
    Prop where
  start_eq : timer.start = value
  shift_eq : timer.shift = shift
  setAt_eq : timer.setAt = since
  expiredRead_eq : timer.expiredRead = late

theorem Timer.restart_counts (timer : Timer) (value : UInt8) (choice : UInt16) (cycles : Nat) :
    (timer.restart value choice cycles).Counts value (shiftOf choice) cycles false :=
  ⟨rfl, rfl, rfl, rfl⟩

namespace Timer.Counts

variable {timer : Timer} {value : UInt8} {shift : Nat} {since : Int} {late : Bool}
  (h : timer.Counts value shift since late) (cycles : Nat)

include h

theorem interval_eq : (timer.interval : Int) = 2 ^ shift := by
  rw [interval, h.shift_eq, Nat.one_shiftLeft]
  push_cast
  rfl

theorem span_eq : timer.span = spanOf value shift := by
  rw [span, h.start_eq, h.interval_eq, spanOf]
  push_cast
  rfl

theorem elapsed_eq : timer.elapsed cycles = cycles - 1 - since := by
  rw [elapsed, h.setAt_eq]

theorem running_eq : timer.running cycles = value.toNat - (cycles - 1 - since) / 2 ^ shift - 1 := by
  rw [running, h.start_eq, h.elapsed_eq, h.interval_eq]

/-- The timer runs as long as its intervals last. -/
theorem running_nonneg_iff : 0 ≤ timer.running cycles ↔ cycles ≤ since + spanOf value shift := by
  have hpos : (0 : Int) < 2 ^ shift := Int.pow_pos (by decide)
  have hspan : (spanOf value shift : Int) = value.toNat * 2 ^ shift := by
    rw [spanOf]
    push_cast
    rfl
  have hquotient := Int.ediv_lt_iff_lt_mul (a := cycles - 1 - since) (b := value.toNat) hpos
  rw [h.running_eq]
  omega

/-- Only the first read more than a cycle after the end is remembered. -/
theorem noteRead_eq : timer.noteRead cycles =
    if since + spanOf value shift + 2 ≤ cycles ∧ late = false then
      { timer with expiredRead := true, expiredReadAt := cycles }
    else timer := by
  have hrunning := h.running_nonneg_iff cycles
  have hremembered : timer.running cycles < 0 ∧ timer.span - timer.elapsed cycles - 1 ≤ -2 ∧
      timer.expiredRead = false ↔ since + spanOf value shift + 2 ≤ cycles ∧ late = false := by
    rw [h.span_eq, h.elapsed_eq, h.expiredRead_eq, ← and_assoc]
    refine and_congr_left fun _ ↦ ?_
    omega
  simp only [Timer.noteRead, hremembered]

theorem noteRead : (timer.noteRead cycles).Counts value shift since
    (late || since + spanOf value shift + 2 ≤ cycles) := by
  rw [h.noteRead_eq]
  split
  · next hnow =>
    refine ⟨h.start_eq, h.shift_eq, h.setAt_eq, ?_⟩
    rw [decide_eq_true hnow.1, Bool.or_true]
  · next hnow =>
    refine ⟨h.start_eq, h.shift_eq, h.setAt_eq, h.expiredRead_eq.trans ?_⟩
    cases late with
    | true => rfl
    | false => rw [decide_eq_false fun hthen ↦ hnow ⟨hthen, rfl⟩, Bool.or_false]

theorem rebase (count : Nat) : (timer.rebase count).Counts value shift (since - count) late :=
  ⟨h.start_eq, h.shift_eq, congrArg (· - (count : Int)) h.setAt_eq, h.expiredRead_eq⟩

/-- While the timer runs a read answers how many intervals are left behind the one it falls into. -/
theorem read_of_running (hstarted : since < cycles) (hruns : cycles ≤ since + spanOf value shift) :
    ((timer.read cycles).1.toNat : Int) = value.toNat - 1 - (cycles - 1 - since) / 2 ^ shift ∧
      (timer.read cycles).1 < value := by
  have hnoted := h.noteRead cycles
  have hrunning : 0 ≤ (timer.noteRead cycles).running cycles := (hnoted.running_nonneg_iff cycles).mpr hruns
  have hcount : (timer.read cycles).1 = UInt8.ofInt ((timer.noteRead cycles).running cycles) := by
    rw [read, Timer.count, if_pos hrunning]
  have hnonneg : 0 ≤ (cycles - 1 - since) / 2 ^ shift :=
    Int.ediv_nonneg (by omega) (Int.pow_nonneg (by decide))
  have hvalue : value.toNat < 256 := value.toNat_lt
  have hanswer : ((timer.read cycles).1.toNat : Int) =
      value.toNat - 1 - (cycles - 1 - since) / 2 ^ shift := by
    rw [hcount, toNat_ofInt]
    rw [hnoted.running_eq] at hrunning ⊢
    omega
  refine ⟨hanswer, UInt8.lt_iff_toNat_lt.mpr ?_⟩
  omega

/-- The first read behind the end takes one off for every cycle and one more for every whole interval: on the
very cycle behind the end neither counts, and later the read has changed the rule before it answers. -/
theorem read_of_expired (hunread : late = false) {past : Nat}
    (hnow : (cycles : Int) = since + spanOf value shift + 1 + past) :
    ((timer.read cycles).1.toNat : Int) = (255 - past - past / 2 ^ shift) % 256 := by
  have hexpired : ¬ 0 ≤ timer.running cycles := by
    rw [h.running_nonneg_iff]
    omega
  have hcount : (timer.noteRead cycles).count cycles = -1 - past - past / 2 ^ shift := by
    by_cases hlate : 1 ≤ past
    · have hremembered : timer.noteRead cycles =
          { timer with expiredRead := true, expiredReadAt := cycles } := by
        rw [h.noteRead_eq, if_pos ⟨by omega, hunread⟩]
      have hquotient : timer.elapsed cycles / timer.interval = value.toNat + past / 2 ^ shift := by
        have hpos : (0 : Int) < 2 ^ shift := Int.pow_pos (by decide)
        have helapsed : timer.elapsed cycles = past + value.toNat * 2 ^ shift := by
          rw [h.elapsed_eq, hnow, spanOf]
          push_cast
          omega
        rw [helapsed, h.interval_eq, Int.add_mul_ediv_right _ _ (Int.ne_of_gt hpos), Int.add_comm]
      rw [hremembered]
      change (if 0 ≤ timer.running cycles then timer.running cycles else
        timer.start.toNat - timer.elapsed cycles / timer.interval -
          ((cycles : Int) - (timer.setAt + timer.span))) = _
      rw [if_neg hexpired, hquotient, h.start_eq, h.setAt_eq, h.span_eq]
      omega
    · obtain rfl : past = 0 := by omega
      rw [h.noteRead_eq, if_neg (by omega), Timer.count, if_neg hexpired, h.expiredRead_eq, hunread,
        if_neg Bool.false_ne_true, h.span_eq, h.elapsed_eq]
      simp only [Int.natCast_zero, Int.zero_ediv]
      omega
  rw [read, toNat_ofInt, hcount]
  omega

theorem interruptFlag_eq : timer.interruptFlag cycles =
    if cycles ≤ since + spanOf value shift ∨ late then 0 else 0x80 := by
  simp only [interruptFlag, h.running_nonneg_iff, h.expiredRead_eq, Bool.or_eq_true,
    decide_eq_true_eq]

end Timer.Counts

/-- One thing done to the chip between two resets. -/
inductive Request where
  | read (cycles : Nat) (ports : Ports) (switches : ConsoleSwitches) (address : UInt16)
  | write (cycles : Nat) (address : UInt16) (value : UInt8)
  /-- The cycle counter drops. -/
  | rebase (cycles : Nat)

namespace Request

def restarts : Request → Bool
  | write _ address _ => startsTimer address
  | _ => false

/-- Cycle on which the request reads the count, if it does. -/
def timerRead? : Request → Option Nat
  | read cycles _ _ address => if readsTimer address then some cycles else none
  | _ => none

/-- Cycles that the request takes off the counter. -/
def drop : Request → Nat
  | rebase cycles => cycles
  | _ => 0

end Request

def serve (riot : Riot) : Request → Riot
  | .read cycles ports switches address => (riot.read cycles ports switches address).2
  | .write cycles address value => (riot.write cycles address value).1
  | .rebase cycles => riot.rebase cycles

def run (riot : Riot) (requests : List Request) : Riot :=
  requests.foldl serve riot

/-- Cycles that a run takes off the counter. -/
def dropped (requests : List Request) : Nat :=
  (requests.map Request.drop).sum

/-- Cycles on which a run reads the count, counted on from `base` when the cycle counter drops. -/
def timerReads (base : Nat) : List Request → List Nat
  | [] => []
  | request :: rest =>
    (request.timerRead?.map (base + ·)).toList ++ timerReads (base + request.drop) rest

/-- Whether one of these reads comes more than a cycle after the end of a timer started on `start`. -/
def anyLate (start : Nat) (value : UInt8) (shift : Nat) (reads : List Nat) : Bool :=
  reads.any fun cycle ↦ start + spanOf value shift + 2 ≤ cycle

section

variable {riot : Riot} {value : UInt8} {shift start base : Nat} {late : Bool}
  (h : riot.timer.Counts value shift (start - base) late)

include h

/-- What one request makes of a timer, unless it starts the timer anew. -/
theorem serve_counts {request : Request} (hkept : request.restarts = false) :
    (riot.serve request).timer.Counts value shift (start - (base + request.drop : Nat))
      (late || anyLate start value shift (request.timerRead?.map (base + ·)).toList) := by
  cases request with
  | read cycles ports switches address =>
    rcases hreads : readsTimer address with _ | _
    · simpa [serve, read_timer_of_not_readsTimer riot hreads, Request.drop, Request.timerRead?, hreads,
        anyLate] using h
    · have hlate : (start : Int) - base + spanOf value shift + 2 ≤ cycles ↔
          start + spanOf value shift + 2 ≤ base + cycles := by omega
      simpa [serve, read_of_readsTimer riot hreads, Timer.read, Request.drop, Request.timerRead?, hreads,
        anyLate, hlate] using h.noteRead cycles
  | write cycles address written =>
    simpa [serve, write_timer_of_not_startsTimer riot hkept, Request.drop, Request.timerRead?,
      anyLate] using h
  | rebase cycles =>
    have hsince : (start : Int) - base - cycles = start - (base + cycles : Nat) := by omega
    simpa [serve, Riot.rebase, Request.drop, Request.timerRead?, anyLate, hsince] using h.rebase cycles

/-- Behind a run the timer knows when it was started, and whether it has been read more than a cycle late. -/
theorem run_counts {requests : List Request} (hkept : ∀ request ∈ requests, request.restarts = false) :
    (riot.run requests).timer.Counts value shift (start - (base + dropped requests : Nat))
      (late || anyLate start value shift (timerReads base requests)) := by
  induction requests generalizing riot base late with
  | nil => simpa [run, dropped, timerReads, anyLate] using h
  | cons request rest ih =>
    obtain ⟨hfirst, hrest⟩ := List.forall_mem_cons.mp hkept
    have hserved := ih (serve_counts h hfirst) hrest
    rw [Bool.or_assoc] at hserved
    simpa [run, dropped, timerReads, anyLate, Nat.add_assoc] using hserved

end

/-! ## The law -/

section

variable (riot : Riot) {register : UInt16} (hstarts : startsTimer register) (value : UInt8) (start : Nat)
  {requests : List Request} (hkept : ∀ request ∈ requests, request.restarts = false)

include hstarts hkept

/-- Whatever is done behind its start, the timer knows when that was. -/
theorem started_counts :
    ((riot.write start register value).1.run requests).timer.Counts value (shiftAt register)
      (start - dropped requests) (anyLate start value (shiftAt register) (timerReads 0 requests)) := by
  have hstarted : (riot.write start register value).1.timer.Counts value (shiftAt register)
      (start - (0 : Nat)) false := by
    rw [write_of_startsTimer riot hstarts, Int.natCast_zero, Int.sub_zero]
    exact riot.timer.restart_counts value _ start
  have hrun := run_counts hstarted hkept
  rwa [Bool.false_or, Nat.zero_add] at hrun

/-- The law of the timer.  It is started at `value` on the cycle `start`, and neither started again nor reset.
While it runs a read answers how many intervals are left behind the one it falls into.  The flag is low till
then, and again from a read more than a cycle after the end on; between them it is up.  Reading the flag
changes nothing.  What is done in between need not be in order. -/
theorem countdown_law (cycles : Nat) (ports : Ports) (switches : ConsoleSwitches) :
    let shift := shiftAt register
    let last := start + value.toNat * 2 ^ shift
    let chip := (riot.write start register value).1.run requests
    let now := dropped requests + cycles
    (∀ address, readsTimer address → start < now → now ≤ last →
      let count := (chip.read cycles ports switches address).1
      (count.toNat : Int) = value.toNat - 1 - ((now : Int) - 1 - start) / 2 ^ shift ∧ count < value) ∧
      ∀ address, readsFlag address → chip.read cycles ports switches address =
        (if now ≤ last ∨ ∃ cycle ∈ timerReads 0 requests, last + 2 ≤ cycle then 0 else 0x80, chip) := by
  intro shift last chip now
  have hcounts : chip.timer.Counts value shift (start - dropped requests)
      (anyLate start value shift (timerReads 0 requests)) :=
    started_counts riot hstarts value start hkept
  have hlast : last = start + spanOf value shift := rfl
  have hruns : (cycles : Int) ≤ start - dropped requests + spanOf value shift ↔ now ≤ last := by omega
  constructor
  · intro address haddress hafter hbefore
    have helapsed : (now : Int) - 1 - start = cycles - 1 - (start - dropped requests) := by omega
    rw [helapsed, read_of_readsTimer chip haddress]
    exact hcounts.read_of_running cycles (by omega) (hruns.mpr hbefore)
  · intro address haddress
    have hlate : anyLate start value shift (timerReads 0 requests) ↔
        ∃ cycle ∈ timerReads 0 requests, last + 2 ≤ cycle := by
      simp only [anyLate, List.any_eq_true, decide_eq_true_eq, hlast]
    simp only [read_of_readsFlag chip haddress, hcounts.interruptFlag_eq, hruns, hlate]

omit hstarts hkept in
/-- Ten intervals of 64 cycles, of which the cycle counter drops 300 and in which the timer is read once. -/
theorem countdown_law_of_rebase :
    let riot : Riot := { random := .ofSeed 0 }
    let requests : List Request := [.read 400 {} {} 0x284, .rebase 300]
    let chip := (riot.write 100 0x296 10).1.run requests
    startsTimer 0x296 ∧ (∀ request ∈ requests, request.restarts = false) ∧
      (chip.read 200 {} {} 0x284).1.toNat = 3 ∧ chip.read 440 {} {} 0x285 = (0, chip) ∧
      chip.read 441 {} {} 0x285 = (0x80, chip) := by
  intro riot requests chip
  have hstarts : startsTimer 0x296 := by decide
  have hkept : ∀ request ∈ requests, request.restarts = false := by decide
  obtain ⟨hcount, -⟩ := countdown_law riot hstarts 10 100 hkept 200 {} {}
  obtain ⟨-, hlow⟩ := countdown_law riot hstarts 10 100 hkept 440 {} {}
  obtain ⟨-, hup⟩ := countdown_law riot hstarts 10 100 hkept 441 {} {}
  have hthree := (hcount 0x284 (by decide) (by decide) (by decide)).1
  exact ⟨hstarts, hkept, Int.ofNat_inj.mp (hthree.trans (by decide)),
    (hlow 0x285 (by decide)).trans (congrArg (·, chip) (by decide)),
    (hup 0x285 (by decide)).trans (congrArg (·, chip) (by decide))⟩

/-- The first read of the timer behind its end, not counting one on the cycle next to it, takes one off for
every cycle and one more for every whole interval.  It has fallen by one in every cycle just if the number of
whole intervals is a multiple of 256, so always within the first interval. -/
theorem expired_read_iff (cycles : Nat) (ports : Ports) (switches : ConsoleSwitches)
    (hunread : ∀ cycle ∈ timerReads 0 requests, cycle < start + spanOf value (shiftAt register) + 2)
    (past : Nat)
    (hnow : dropped requests + cycles = start + spanOf value (shiftAt register) + 1 + past)
    {address : UInt16} (haddress : readsTimer address) :
    let shift := shiftAt register
    let chip := (riot.write start register value).1.run requests
    let count := (chip.read cycles ports switches address).1
    (count.toNat : Int) = (255 - past - past / 2 ^ shift) % 256 ∧
      ((count.toNat : Int) = (255 - past) % 256 ↔ 256 ∣ past / 2 ^ shift) := by
  intro shift chip count
  have hspan : spanOf value shift = spanOf value (shiftAt register) := rfl
  have hcounts : chip.timer.Counts value shift (start - dropped requests)
      (anyLate start value shift (timerReads 0 requests)) :=
    started_counts riot hstarts value start hkept
  have hnone : anyLate start value shift (timerReads 0 requests) = false := by
    simp only [anyLate, List.any_eq_false, decide_eq_true_eq, Nat.not_le]
    exact hunread
  have hcount : (count.toNat : Int) = (255 - past - past / 2 ^ shift) % 256 := by
    simp only [count, read_of_readsTimer chip haddress]
    exact hcounts.read_of_expired cycles hnone (by omega)
  refine ⟨hcount, ?_⟩
  rw [hcount]
  have hcast : ((past / 2 ^ shift : Nat) : Int) = past / 2 ^ shift := by
    push_cast
    rfl
  omega

omit hstarts hkept in
/-- Ten intervals of 64 cycles, read in the fifth of them and 100 cycles behind the last. -/
theorem expired_read_iff_of_interval :
    let riot : Riot := { random := .ofSeed 0 }
    let requests : List Request := [.read 400 {} {} 0x284, .rebase 300]
    let chip := (riot.write 100 0x296 10).1.run requests
    startsTimer 0x296 ∧ (∀ request ∈ requests, request.restarts = false) ∧
      (∀ cycle ∈ timerReads 0 requests, cycle < 100 + spanOf 10 (shiftAt 0x296) + 2) ∧
      dropped requests + 541 = 100 + spanOf 10 (shiftAt 0x296) + 1 + 100 ∧
      (chip.read 541 {} {} 0x284).1.toNat = 154 := by
  intro riot requests chip
  have hstarts : startsTimer 0x296 := by decide
  have hkept : ∀ request ∈ requests, request.restarts = false := by decide
  have hunread : ∀ cycle ∈ timerReads 0 requests, cycle < 100 + spanOf 10 (shiftAt 0x296) + 2 := by decide
  have hnow : dropped requests + 541 = 100 + spanOf 10 (shiftAt 0x296) + 1 + 100 := by decide
  have hcount := (expired_read_iff riot hstarts 10 100 hkept 541 {} {} hunread 100 hnow
    (by decide : readsTimer 0x284)).1
  exact ⟨hstarts, hkept, hunread, hnow, Int.ofNat_inj.mp (hcount.trans (by decide))⟩

omit hstarts hkept in
/-- A timer of a single cycle, first read two cycles behind its last: it has fallen by two since the cycle
before, on which it was to be read as 255. -/
theorem expired_read_skips :
    let chip := (({ random := .ofSeed 0 } : Riot).write 0 0x294 1).1
    startsTimer 0x294 ∧ 3 = spanOf 1 (shiftAt 0x294) + 1 + 1 ∧ (chip.read 2 {} {} 0x284).1.toNat = 255 ∧
      (chip.read 3 {} {} 0x284).1.toNat = 253 ∧
      ((chip.read 3 {} {} 0x284).1.toNat : Int) ≠ (255 - 1) % 256 := by
  decide +kernel

end

end Vcs.Riot
