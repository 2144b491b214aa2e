import Vcs.Proofs.Tia.BeamPosition
import Vcs.Proofs.Tia.Stored

/-!
# Vertical Sync

A program ends its picture by raising vertical sync, holding it for a scanline and releasing it.  The chip does
not look at how long sync is held.  Every write that raises it puts a deadline a line ahead, and a write that
finds the deadline reached and sync low ends the frame and puts the deadline away.

Clocks are counted here from the reset on, those that have dropped out of the cycle counter included, and a run
is watched for two things: since when sync has been raised, and which write raised it last without having been
answered by the end of a frame.  Main statement: a release ends the frame exactly if sync was held for a line,
unless it finds sync low behind a deadline that was left standing, or finds sync raised anew in the last line.
Neither happens on a run on which every write of sync changes it.
-/

namespace Vcs.Tia

/-- Whether vertical sync is raised. -/
def syncRaised (s : Tia) : Bool :=
  s.objects.registers.test .vsync 0x02

/-- What a write of vertical sync makes of it. -/
def Access.sync? : Access → Option Bool
  | .read .. => none
  | .write _ _ address value => if names address .vsync then some (value &&& 0x02 != 0) else none

/-- Only its own writes change vertical sync. -/
theorem actOn_syncRaised (s : Tia) {register : Register} (h : register ≠ .vsync)
    (previous value : UInt8) (clock : Int) (cycles : Nat) (afterRead : Bool) (response : Response) :
    (s.actOn register previous value clock cycles afterRead response).1.syncRaised =
      s.syncRaised :=
  congrArg (· &&& 0x02 != 0)
    (s.actOn_get_of_ne h.symm (by decide) previous value clock cycles afterRead response)

theorem beginFrame_syncRaised (s : Tia) (carry : Int) :
    (s.beginFrame carry).syncRaised = s.syncRaised :=
  congrArg (· &&& 0x02 != 0) (s.beginFrame_get carry (by decide))

/-- What an access at a clock makes of the deadline. -/
def syncDeadline (due clock : Int) : Option Bool → Int
  | none => due
  | some true => clock + lineClocks
  | some false => if due ≤ clock then syncIdle else due

/-- What an access at a clock makes of vertical sync and its deadline. -/
structure SyncAfter (s : Tia) (wrote : Option Bool) (clock : Int) (after : Tia) : Prop where
  raised : after.syncRaised = wrote.getD s.syncRaised
  due : after.frame.syncDue = syncDeadline s.frame.syncDue clock wrote

theorem writeSync_syncAfter (s : Tia) (previous value : UInt8) (clock : Int)
    (hstored : s.syncRaised = (value &&& 0x02 != 0)) {before : Tia}
    (hdue : s.frame.syncDue = before.frame.syncDue) :
    before.SyncAfter (some (value &&& 0x02 != 0)) clock (s.writeSync previous value clock).2 := by
  have hkept : (s.writeSync previous value clock).2.syncRaised = s.syncRaised := by
    unfold writeSync
    dsimp only
    split_ifs <;> rfl
  refine ⟨hkept.trans hstored, ?_⟩
  rw [← hdue]
  rcases hvalue : value &&& 0x02 != 0 with _ | _
  · simp only [writeSync, hvalue, syncDeadline, Bool.false_and, Bool.false_eq_true, if_false]
    split <;> rfl
  · simp only [writeSync, hvalue, syncDeadline, if_true]

theorem write_syncAfter (s : Tia) (cycles : Nat) (afterRead : Bool) (address : UInt16) (value : UInt8) :
    s.SyncAfter (Access.write cycles afterRead address value).sync? (clockOf cycles)
      (s.write cycles afterRead address value).1 := by
  have hcaught (clock : Int) :
      ((s.catchUp clock).enforceCeiling (clockOf cycles)).1.objects.registers = s.objects.registers := by
    obtain ⟨frame, hframe⟩ := enforceCeiling_eq (s.catchUp clock) (clockOf cycles)
    rw [hframe]
    exact s.catchUp_registers clock
  have hdue (clock : Int) : ((s.catchUp clock).enforceCeiling (clockOf cycles)).1.frame.syncDue =
      s.frame.syncDue := by
    rw [enforceCeiling_syncDue, catchUp_frame]
  rcases hregister : Register.ofAddress? address.toUInt8 with _ | register
  · simp only [write, hregister, Access.sync?, names, reduceCtorEq, decide_false]
    refine ⟨?_, hdue _⟩
    simp only [syncRaised, hcaught]
    rfl
  · simp only [write, hregister, Access.sync?, names, Option.some.injEq]
    by_cases hsync : register = .vsync
    · subst hsync
      simp only [decide_true, if_true]
      refine writeSync_syncAfter _ _ value _ ?_ (hdue _)
      simp only [syncRaised, mapObjects, RegisterFile.test, RegisterFile.get_set_self]
    · simp only [hsync, decide_false, Bool.false_eq_true, if_false]
      constructor
      · rw [actOn_syncRaised _ hsync]
        simp only [syncRaised, mapObjects, RegisterFile.test, RegisterFile.get_set_of_ne _ hsync, hcaught]
        rfl
      · rw [actOn_frame _ hsync]
        exact hdue _

theorem perform_syncAfter (s : Tia) (request : Access) :
    s.SyncAfter request.sync? (clockOf request.cycles) (s.perform request).2 := by
  cases request with
  | read cycles dataBus ports address =>
    refine ⟨?_, congrArg FrameState.syncDue (s.catchUp_frame _)⟩
    have hregisters : (s.read cycles dataBus ports address).2.objects.registers = s.objects.registers :=
      s.catchUp_registers _
    simp only [perform, syncRaised, hregisters]
    rfl
  | write cycles afterRead address value => exact s.write_syncAfter cycles afterRead address value

/-! ## Watching a run -/

/-- What a step of a frame writes to vertical sync. -/
def FrameStep.sync? : FrameStep → Option Bool
  | .access request => request.sync?
  | .rebase _ => none

/-- Cycles of the accesses of a run, counted on when the cycle counter drops. -/
def accessCycles (dropped : Nat) : List FrameStep → List Nat
  | [] => []
  | .access request :: rest => (dropped + request.cycles) :: accessCycles dropped rest
  | .rebase cycles :: rest => accessCycles (dropped + cycles) rest

/-- A chip on a run, with what has been seen of vertical sync. -/
structure SyncWatch where
  chip : Tia
  /-- Cycles that have dropped out of the counter. -/
  dropped : Nat := 0
  /-- Cycle of the last access. -/
  now : Nat := 0
  /-- Clock since which sync has been raised without a break. -/
  heldSince : Option Int := none
  /-- Clock of the last write that raised sync, unless a frame has ended on it. -/
  raisedAt : Option Int := none
  /-- The deadline while there is none. -/
  idleUntil : Int := syncIdle

namespace SyncWatch

/-- Clock from which on a release ends the frame. -/
def due (w : SyncWatch) : Int :=
  match w.raisedAt with
  | some clock => clock + lineClocks
  | none => w.idleUntil

/-- An access releases sync with the deadline reached. -/
def answers (w : SyncWatch) (request : Access) : Bool :=
  request.sync? = some false && w.due ≤ clockOf (w.dropped + request.cycles)

def observe (w : SyncWatch) : FrameStep → SyncWatch
  | .access request =>
    let chip := (w.chip.perform request).2
    let now := w.dropped + request.cycles
    { chip := chip
      dropped := w.dropped
      now := now
      heldSince := if chip.syncRaised then some (w.heldSince.getD (clockOf now)) else none
      raisedAt :=
        if request.sync? = some true then some (clockOf now)
        else if w.answers request then none
        else w.raisedAt
      idleUntil := if w.answers request then syncIdle + clockOf w.dropped else w.idleUntil }
  | .rebase cycles => { w with chip := w.chip.rebase cycles, dropped := w.dropped + cycles }

def watch (w : SyncWatch) (steps : List FrameStep) : SyncWatch :=
  steps.foldl observe w

/-- The watch of a chip that has just been reset and has begun a frame. -/
def start (before : Tia) (cycles : Nat) (carry : Int) : SyncWatch where
  chip := (before.reset cycles).1.beginFrame carry

/-- At a clock sync has been held for a line. -/
def HeldLine (w : SyncWatch) (clock : Int) : Prop :=
  ∃ since, w.heldSince = some since ∧ since ≤ clock - lineClocks

/-- At a clock the deadline tells whether sync has been held for a line: it is ahead while sync is low, and
has been reached if sync was raised a line ago. -/
def DeadlineTells (w : SyncWatch) (clock : Int) : Prop :=
  match w.heldSince with
  | none => clock < w.due
  | some since => since + lineClocks ≤ clock → w.due ≤ clock

theorem watch_chip (w : SyncWatch) (steps : List FrameStep) :
    (w.watch steps).chip = w.chip.play steps := by
  have hobserve (w : SyncWatch) (step : FrameStep) : (w.observe step).chip = step.apply w.chip := by
    cases step <;> rfl
  induction steps generalizing w with
  | nil => rfl
  | cons step rest ih =>
    have hrest := ih (w.observe step)
    rw [hobserve] at hrest
    exact hrest

structure Sound (w : SyncWatch) : Prop where
  due_eq : w.chip.frame.syncDue = w.due - clockOf w.dropped
  raised_eq : w.chip.syncRaised = w.heldSince.isSome
  /-- Sync is held since the write that raised it last, or longer. -/
  raisedAt_ge : ∀ since, w.heldSince = some since → ∃ clock, w.raisedAt = some clock ∧ since ≤ clock
  heldSince_le : ∀ since, w.heldSince = some since → since ≤ clockOf w.now

theorem start_sound (before : Tia) (cycles : Nat) (carry : Int) : (start before cycles carry).Sound where
  due_eq := rfl
  raised_eq := by
    have hlow : (before.reset cycles).1.syncRaised = false :=
      congrArg (· &&& 0x02 != 0) (before.reset_get cycles .vsync)
    exact ((before.reset cycles).1.beginFrame_syncRaised carry).trans hlow
  raisedAt_ge := fun since hheld ↦ absurd hheld.symm (Option.some_ne_none since)
  heldSince_le := fun since hheld ↦ absurd hheld.symm (Option.some_ne_none since)

namespace Sound

variable {w : SyncWatch} (h : w.Sound)

include h

theorem rebase (cycles : Nat) : (w.observe (.rebase cycles)).Sound where
  due_eq := by
    have hdue := h.due_eq
    have hsame : (w.observe (.rebase cycles)).due = w.due := rfl
    simp only [hsame]
    simp only [observe, Tia.rebase, clockOf, clocksPerCycle, hdue]
    omega
  raised_eq := h.raised_eq
  raisedAt_ge := h.raisedAt_ge
  heldSince_le := h.heldSince_le

variable {request : Access}

theorem heldSince_of_none (hwrote : request.sync? = none) :
    (w.observe (.access request)).heldSince = w.heldSince := by
  have hraised := (w.chip.perform_syncAfter request).raised
  rw [hwrote, Option.getD_none, h.raised_eq] at hraised
  simp only [observe, hraised]
  cases w.heldSince <;> rfl

omit h in
theorem heldSince_of_some {raises : Bool} (hwrote : request.sync? = some raises) :
    (w.observe (.access request)).heldSince =
      if raises then some (w.heldSince.getD (clockOf (w.dropped + request.cycles))) else none := by
  have hraised := (w.chip.perform_syncAfter request).raised
  rw [hwrote, Option.getD_some] at hraised
  simp only [observe, hraised]

/-- The deadline of the chip is the one seen, the dropped clocks taken off. -/
theorem due_access :
    (w.observe (.access request)).chip.frame.syncDue =
      (w.observe (.access request)).due - clockOf w.dropped := by
  have hdue := h.due_eq
  have hclock : clockOf (w.dropped + request.cycles) = clockOf request.cycles + clockOf w.dropped := by
    simp only [clockOf, clocksPerCycle]
    omega
  have hreached : w.chip.frame.syncDue ≤ clockOf request.cycles ↔
      w.due ≤ clockOf (w.dropped + request.cycles) := by
    omega
  have hdeadline : (w.observe (.access request)).chip.frame.syncDue = _ :=
    (w.chip.perform_syncAfter request).due
  rw [hdeadline]
  rcases hwrote : request.sync? with _ | _ | _
  · simp only [syncDeadline, due, observe, answers, hwrote, reduceCtorEq, decide_false,
      Bool.false_and, Bool.false_eq_true, if_false]
    exact hdue
  · by_cases hanswers : w.due ≤ clockOf (w.dropped + request.cycles)
    · simp only [syncDeadline, hreached.mpr hanswers, if_true, observe, answers, hwrote, hanswers]
      simp [due]
    · simp only [syncDeadline, hreached.not.mpr hanswers, if_false, observe, answers, hwrote, hanswers]
      simpa [due] using hdue
  · simp only [syncDeadline, due, observe, hwrote, if_true, hclock]
    omega

theorem heldSince_getD_le (hnow : w.now ≤ w.dropped + request.cycles) :
    w.heldSince.getD (clockOf (w.dropped + request.cycles)) ≤
      clockOf (w.dropped + request.cycles) := by
  rcases hbefore : w.heldSince with _ | since
  · exact le_refl _
  · exact (h.heldSince_le since hbefore).trans (clockOf_le_clockOf hnow)

theorem access (hnow : w.now ≤ w.dropped + request.cycles) :
    (w.observe (.access request)).Sound where
  due_eq := h.due_access
  raised_eq := by
    simp only [observe]
    split
    · assumption
    · next hlow => exact Bool.eq_false_iff.mpr hlow
  raisedAt_ge since hheld := by
    rcases hwrote : request.sync? with _ | _ | _
    · rw [h.heldSince_of_none hwrote] at hheld
      simpa [observe, answers, hwrote] using h.raisedAt_ge since hheld
    · rw [heldSince_of_some hwrote] at hheld
      exact absurd hheld.symm (Option.some_ne_none since)
    · rw [heldSince_of_some hwrote, if_pos rfl, Option.some.injEq] at hheld
      exact ⟨clockOf (w.dropped + request.cycles), by simp [observe, hwrote],
        hheld ▸ h.heldSince_getD_le hnow⟩
  heldSince_le since hheld := by
    simp only [observe] at hheld
    split at hheld
    · exact Option.some.inj hheld ▸ h.heldSince_getD_le hnow
    · exact absurd hheld.symm (Option.some_ne_none since)

/-- Along a run whose accesses are in order what is seen keeps agreeing with the chip, and the accesses that
follow are in order too. -/
theorem watch {steps rest : List FrameStep}
    (horder : (w.now :: accessCycles w.dropped (steps ++ rest)).Pairwise (· ≤ ·)) :
    (w.watch steps).Sound ∧
      ((w.watch steps).now :: accessCycles (w.watch steps).dropped rest).Pairwise (· ≤ ·) := by
  induction steps generalizing w with
  | nil => exact ⟨h, horder⟩
  | cons step steps ih =>
    cases step with
    | rebase cycles => exact ih (h.rebase cycles) horder
    | access request =>
      obtain ⟨hnow, hlater⟩ := List.pairwise_cons.mp horder
      exact ih (h.access (hnow _ List.mem_cons_self)) hlater

variable {cycles : Nat} {address : UInt16} {value : UInt8}

theorem releasesSync_iff (hsync : names address .vsync) (hclear : value &&& 0x02 = 0) :
    w.chip.releasesSync cycles address value ↔ w.due ≤ clockOf (w.dropped + cycles) := by
  have hdue := h.due_eq
  have hclock : clockOf (w.dropped + cycles) = clockOf cycles + clockOf w.dropped := by
    simp only [clockOf, clocksPerCycle]
    omega
  simp only [releasesSync, hsync, hclear, beq_self_eq_true, Bool.true_and, decide_eq_true_eq]
  omega

/-- Whether the deadline is reached tells whether sync has been held for a line just where it is said to. -/
theorem due_le_iff_heldLine_iff (clock : Int) :
    (w.due ≤ clock ↔ w.HeldLine clock) ↔ w.DeadlineTells clock := by
  rcases hheld : w.heldSince with _ | since
  · simp only [HeldLine, DeadlineTells, hheld, reduceCtorEq, false_and, exists_false, iff_false,
      Int.not_le]
  · obtain ⟨raised, hraised, hge⟩ := h.raisedAt_ge since hheld
    simp only [HeldLine, DeadlineTells, hheld, Option.some.injEq, exists_eq_left', due, hraised,
      lineClocks]
    constructor
    · intro hiff hlong
      exact hiff.mpr (by omega)
    · intro htells
      constructor
      · omega
      · intro hlong
        exact htells (by omega)

end Sound

namespace Sound

variable {w : SyncWatch}

/-- If every write of sync changes it, then sync is held since the write that raised it last. -/
theorem watch_raisedAt (h : w.Sound)
    (hsharp : ∀ since, w.heldSince = some since → w.raisedAt = some since) {steps rest : List FrameStep}
    (horder : (w.now :: accessCycles w.dropped (steps ++ rest)).Pairwise (· ≤ ·))
    (hchanges : (w.chip.syncRaised :: (steps ++ rest).filterMap FrameStep.sync?).IsChain (· ≠ ·)) :
    (∀ since, (w.watch steps).heldSince = some since → (w.watch steps).raisedAt = some since) ∧
      ((w.watch steps).chip.syncRaised :: rest.filterMap FrameStep.sync?).IsChain (· ≠ ·) := by
  induction steps generalizing w with
  | nil => exact ⟨hsharp, hchanges⟩
  | cons step steps ih =>
    cases step with
    | rebase cycles => exact ih (h.rebase cycles) hsharp horder hchanges
    | access request =>
      obtain ⟨hnow, hlater⟩ := List.pairwise_cons.mp horder
      have hnext := ih (h.access (hnow _ List.mem_cons_self))
      have hraised : (w.observe (.access request)).chip.syncRaised = _ :=
        (w.chip.perform_syncAfter request).raised
      rcases hwrote : request.sync? with _ | _ | _
      · rw [List.cons_append, List.filterMap_cons_none (by exact hwrote)] at hchanges
        rw [hwrote, Option.getD_none] at hraised
        refine hnext ?_ hlater (hraised ▸ hchanges)
        intro since hheld
        rw [h.heldSince_of_none hwrote] at hheld
        simpa [observe, answers, hwrote] using hsharp since hheld
      · rw [List.cons_append, List.filterMap_cons_some (by exact hwrote)] at hchanges
        rw [hwrote, Option.getD_some] at hraised
        refine hnext ?_ hlater (hraised ▸ (List.isChain_cons_cons.mp hchanges).2)
        intro since hheld
        rw [heldSince_of_some hwrote] at hheld
        exact absurd hheld.symm (Option.some_ne_none since)
      · rw [List.cons_append, List.filterMap_cons_some (by exact hwrote)] at hchanges
        rw [hwrote, Option.getD_some] at hraised
        obtain ⟨hchange, hfollowing⟩ := List.isChain_cons_cons.mp hchanges
        have hlow : w.heldSince = none := by
          rw [h.raised_eq] at hchange
          simpa using hchange
        refine hnext ?_ hlater (hraised ▸ hfollowing)
        intro since hheld
        rw [heldSince_of_some hwrote, if_pos rfl, hlow, Option.getD_none] at hheld
        simpa [observe, hwrote] using hheld

end Sound

/-- The accesses of a run are at cycles that never go back. -/
def InOrder (steps : List FrameStep) : Prop :=
  (accessCycles 0 steps).Pairwise (· ≤ ·)

instance (steps : List FrameStep) : Decidable (InOrder steps) :=
  inferInstanceAs (Decidable ((accessCycles 0 steps).Pairwise (· ≤ ·)))

/-- Every write of vertical sync changes it, sync being low at first. -/
def Alternates (steps : List FrameStep) : Prop :=
  (false :: steps.filterMap FrameStep.sync?).IsChain (· ≠ ·)

section

variable (before : Tia) (start : Nat) (carry : Int) (steps : List FrameStep) (cycles : Nat)
  (afterRead : Bool) (address : UInt16) (value : UInt8)

theorem InOrder.cons_zero {steps : List FrameStep} (h : InOrder steps) :
    (0 :: accessCycles 0 steps).Pairwise (· ≤ ·) :=
  List.pairwise_cons.mpr ⟨fun _ _ ↦ Nat.zero_le _, h⟩

/-- On every run of a frame from a reset on, a write that leaves sync low ends the frame and asks for a stop, the
scanline ceiling apart, if the deadline has been reached.  It does so exactly after a line of sync just where
the deadline tells. -/
theorem release_ends_iff (hsync : names address .vsync) (hclear : value &&& 0x02 = 0)
    (horder : InOrder (steps ++ [.access (.write cycles afterRead address value)])) :
    let w := (SyncWatch.start before start carry).watch steps
    let clock := clockOf (w.dropped + cycles)
    let released := w.chip.releasesSync cycles address value
    let after := w.chip.write cycles afterRead address value
    w.chip = ((before.reset start).1.beginFrame carry).play steps ∧
      w.chip.syncRaised = w.heldSince.isSome ∧
      after.2.stop = (w.chip.isPast cycles || released) ∧
      after.1.frame.drawing = (w.chip.frame.drawing && !w.chip.isPast cycles && !released) ∧
      ((released ↔ w.HeldLine clock) ↔ w.DeadlineTells clock) := by
  intro w clock released after
  have hsound : w.Sound := ((start_sound before start carry).watch horder.cons_zero).1
  have hends := w.chip.write_ends cycles afterRead address value
  refine ⟨watch_chip _ steps, hsound.raised_eq, hends.stop, hends.drawing, ?_⟩
  rw [hsound.releasesSync_iff hsync hclear]
  exact hsound.due_le_iff_heldLine_iff clock

/-- Sync is raised, the cycle counter drops in the middle of the line, and sync is released a line later. -/
theorem release_ends_iff_of_line :
    let steps : List FrameStep := [.access (.write 100 true 0 0x02), .rebase 76]
    let w := (SyncWatch.start (Tia.new {}) 0 0).watch steps
    let after := w.chip.write 100 true 0 0
    InOrder (steps ++ [.access (.write 100 true 0 0)]) ∧ w.HeldLine 528 ∧ after.2.stop = true ∧
      after.1.frame.drawing = false := by
  intro steps w after
  have horder : InOrder (steps ++ [.access (.write 100 true 0 0)]) := by decide
  obtain ⟨-, -, hstop, hdrawing, hiff⟩ :=
    release_ends_iff (Tia.new {}) 0 0 steps 100 true 0 0 (by decide) (by decide) horder
  have hsince : w.heldSince = some 300 := by decide +kernel
  have hdue : w.due = 528 := by decide +kernel
  have hheld : w.HeldLine 528 := ⟨300, hsince, by decide⟩
  have htells : w.DeadlineTells 528 := by
    simp only [DeadlineTells, hsince, hdue, le_refl, implies_true]
  have hreleased : w.chip.releasesSync 100 0 0 = true := (hiff.mpr htells).mpr hheld
  refine ⟨horder, hheld, ?_, ?_⟩
  · rw [hstop, hreleased, Bool.or_true]
  · rw [hdrawing, hreleased, Bool.not_true, Bool.and_false]

/-- A release that comes too early leaves the deadline standing, and the next write of zero ends the frame with
sync long low. -/
theorem release_ends_unheld :
    let steps : List FrameStep := [.access (.write 0 true 0 0x02), .access (.write 50 true 0 0)]
    let w := (SyncWatch.start (Tia.new {}) 0 0).watch steps
    let after := w.chip.write 100 true 0 0
    InOrder (steps ++ [.access (.write 100 true 0 0)]) ∧ w.chip.syncRaised = false ∧
      w.heldSince = none ∧ w.chip.isPast 100 = false ∧ w.chip.releasesSync 100 0 0 = true ∧
      w.chip.frame.drawing = true ∧ after.1.frame.drawing = false ∧ after.2.stop = true := by
  decide +kernel

/-- While every write of sync changes it, a release ends the frame exactly after a line of sync. -/
theorem releasesSync_iff_heldLine (hsync : names address .vsync) (hclear : value &&& 0x02 = 0)
    (horder : InOrder (steps ++ [.access (.write cycles afterRead address value)]))
    (hchanges : Alternates (steps ++ [.access (.write cycles afterRead address value)])) :
    let w := (SyncWatch.start before start carry).watch steps
    w.chip.releasesSync cycles address value ↔ w.HeldLine (clockOf (w.dropped + cycles)) := by
  intro w
  have hstart := start_sound before start carry
  have hsound : w.Sound := (hstart.watch horder.cons_zero).1
  have hlow : (SyncWatch.start before start carry).chip.syncRaised = false := hstart.raised_eq
  have hnone (since : Int) (hheld : (SyncWatch.start before start carry).heldSince = some since) :
      (SyncWatch.start before start carry).raisedAt = some since :=
    absurd hheld.symm (Option.some_ne_none since)
  obtain ⟨hsharp, hlast⟩ := hstart.watch_raisedAt hnone horder.cons_zero (hlow ▸ hchanges)
  have hfinal : FrameStep.sync? (.access (.write cycles afterRead address value)) = some false := by
    simp [FrameStep.sync?, Access.sync?, hsync, hclear]
  rw [hsound.releasesSync_iff hsync hclear]
  refine (hsound.due_le_iff_heldLine_iff _).mpr ?_
  rw [List.filterMap_cons_some hfinal] at hlast
  have hchange : w.chip.syncRaised ≠ false := (List.isChain_cons_cons.mp hlast).1
  rw [hsound.raised_eq, Ne, Bool.not_eq_false, Option.isSome_iff_exists] at hchange
  obtain ⟨since, hheld⟩ := hchange
  have hraised : w.raisedAt = some since := hsharp since hheld
  simp only [DeadlineTells, hheld, due, hraised, imp_self]

end

end SyncWatch

end Vcs.Tia
