import Vcs.Proofs.Tia.Access

/-!
# Catching Up

The picture is drawn when somebody touches a register, and everything up to that clock is drawn at once.
Main statement: it makes no difference when that happens.  Catching up to one clock and then to another is
catching up to the later of them, and reads that are put between the accesses of a run change nothing that
the accesses behind them find or leave.
-/

namespace Vcs.Tia

theorem clockOf_le_clockOf {first second : Nat} (h : first ≤ second) :
    clockOf first ≤ clockOf second := by
  simp only [clockOf, clocksPerCycle]
  omega

theorem tick_lineLeft_le {s : Tia} (hle : s.beam.lineLeft ≤ lineClocks) :
    s.tick.beam.lineLeft ≤ lineClocks := by
  obtain ⟨drawn, hbeam⟩ := s.tick_beam
  rw [hbeam]
  dsimp only
  split <;> omega

/-- What every tick keeps holds when the beam has caught up. -/
theorem catchUp_induction {motive : Tia → Prop} {s : Tia} (hle : s.beam.lineLeft ≤ lineClocks)
    (clock : Int) (start : motive s) (step : ∀ t, motive t → motive t.tick) :
    motive (s.catchUp clock) := by
  rw [catchUp_eq_ticks hle]
  exact Function.Iterate.rec motive start step _

theorem catchUp_lineLeft_le {s : Tia} (hle : s.beam.lineLeft ≤ lineClocks) (clock : Int) :
    (s.catchUp clock).beam.lineLeft ≤ lineClocks :=
  catchUp_induction (motive := fun t ↦ t.beam.lineLeft ≤ lineClocks) hle clock hle
    fun _ ↦ tick_lineLeft_le

/-- Stamps of the frame that the beam does not move. -/
def Beam.stamps (beam : Beam) : Int × Int × Int :=
  (beam.frameStart, beam.displayStart, beam.displayStop)

theorem Beam.stamps_eq_iff {beam other : Beam} : beam.stamps = other.stamps ↔
    beam.frameStart = other.frameStart ∧ beam.displayStart = other.displayStart ∧
      beam.displayStop = other.displayStop := by
  simp only [stamps, Prod.mk.injEq]

theorem tick_stamps (s : Tia) : s.tick.beam.stamps = s.beam.stamps := by
  obtain ⟨drawn, hbeam⟩ := s.tick_beam
  rw [hbeam]
  rfl

theorem ticks_stamps (s : Tia) (count : Nat) :
    (tick^[count] s).beam.stamps = s.beam.stamps :=
  Function.Iterate.rec (fun t : Tia ↦ t.beam.stamps = s.beam.stamps) rfl
    (fun t h ↦ t.tick_stamps.trans h) count

theorem catchUp_frameStart {s : Tia} (hle : s.beam.lineLeft ≤ lineClocks) (clock : Int) :
    (s.catchUp clock).beam.frameStart = s.beam.frameStart := by
  rw [catchUp_eq_ticks hle]
  exact congrArg Prod.fst (s.ticks_stamps _)

theorem catchUp_lineCycle {s : Tia} (hle : s.beam.lineLeft ≤ lineClocks) (clock stop : Int) :
    (s.catchUp stop).beam.lineCycle clock = s.beam.lineCycle clock := by
  simp only [Beam.lineCycle, Beam.lineClock, catchUp_frameStart hle]

/-- Catching up twice is catching up to the later clock. -/
theorem catchUp_catchUp {s : Tia} (hle : s.beam.lineLeft ≤ lineClocks) (first second : Int) :
    (s.catchUp first).catchUp second = s.catchUp (max first second) := by
  have hdue : (s.catchUp first).beam.due second + s.beam.due first =
      s.beam.due (max first second) := by
    have hstamps := s.ticks_stamps (s.beam.due first)
    have hdrawn := s.ticks_drawnTo (s.beam.due first)
    rw [← catchUp_eq_ticks hle] at hstamps hdrawn
    obtain ⟨-, hstart, hstop⟩ := Beam.stamps_eq_iff.mp hstamps
    simp only [Beam.due, hstart, hstop, hdrawn]
    split_ifs <;> omega
  have hcaught : s.catchUp first = tick^[s.beam.due first] s := catchUp_eq_ticks hle first
  calc
    (s.catchUp first).catchUp second =
        tick^[(s.catchUp first).beam.due second] (s.catchUp first) :=
      catchUp_eq_ticks (catchUp_lineLeft_le hle first) second
    _ = tick^[(s.catchUp first).beam.due second] (tick^[s.beam.due first] s) := congrArg _ hcaught
    _ = tick^[(s.catchUp first).beam.due second + s.beam.due first] s :=
      (Function.iterate_add_apply tick _ _ s).symm
    _ = tick^[s.beam.due (max first second)] s := by rw [hdue]
    _ = s.catchUp (max first second) := (catchUp_eq_ticks hle _).symm

/-- Whatever an access does, the screen is that of a beam that has caught up to some clock. -/
theorem perform_screen {s : Tia} (hle : s.beam.lineLeft ≤ lineClocks) (access : Access) :
    ∃ clock, (s.perform access).2.screen = (s.catchUp clock).screen := by
  cases access with
  | read cycles dataBus ports address => exact ⟨clockOf cycles, rfl⟩
  | write cycles afterRead address value =>
    rcases s.write_screen cycles afterRead address value with ⟨delay, h⟩ | ⟨which, frame, h⟩
    · exact ⟨clockOf cycles + delay, h⟩
    · have hlater : max (clockOf cycles) (clockOf cycles + 11) = clockOf cycles + 11 := by omega
      refine ⟨clockOf cycles + 11, h.trans ?_⟩
      rw [catchUp_withStrobe (catchUp_lineLeft_le hle _), catchUp_catchUp hle, hlater]
      rfl

theorem perform_lineLeft_le {s : Tia} (hle : s.beam.lineLeft ≤ lineClocks) (access : Access) :
    (s.perform access).2.beam.lineLeft ≤ lineClocks := by
  obtain ⟨clock, hscreen⟩ := perform_screen hle access
  have hbeam : (s.perform access).2.beam = (s.catchUp clock).beam := congrArg Screen.beam hscreen
  rw [hbeam]
  exact catchUp_lineLeft_le hle clock

/-- An access does not find out that the beam has caught up before it. -/
theorem perform_catchUp {s : Tia} (hle : s.beam.lineLeft ≤ lineClocks) {clock : Int}
    (access : Access) (h : clock ≤ clockOf access.cycles) :
    (s.catchUp clock).perform access = s.perform access := by
  cases access with
  | read cycles dataBus ports address =>
    have hcaught : (s.catchUp clock).catchUp (clockOf cycles) = s.catchUp (clockOf cycles) := by
      have hnow : max clock (clockOf cycles) = clockOf cycles := Int.max_eq_right h
      rw [catchUp_catchUp hle, hnow]
    simp only [perform, read, hcaught]
  | write cycles afterRead address value =>
    have hcaught (delay : Nat) : (s.catchUp clock).catchUp (clockOf cycles + delay) =
        s.catchUp (clockOf cycles + delay) := by
      have hlate : clock ≤ clockOf cycles + delay := by
        have hcycles : clock ≤ clockOf cycles := h
        omega
      rw [catchUp_catchUp hle, Int.max_eq_right hlate]
    have hnow : (s.catchUp clock).catchUp (clockOf cycles) = s.catchUp (clockOf cycles) := by
      simpa using hcaught 0
    simp only [perform, write, hcaught, hnow, catchUp_lineCycle hle]

/-- An access of a run.  It is an extra one if the program would not have made it. -/
structure Visit where
  access : Access
  isExtra : Bool

/-- What the accesses of a run find, and the chip that each of them leaves. -/
def history (s : Tia) : List Visit → List (Visit × Answer × Tia)
  | [] => []
  | visit :: rest =>
    let (answer, after) := s.perform visit.access
    (visit, answer, after) :: after.history rest

/-- Chips that no access from some cycle on can tell apart go through a run alike, whatever is read
between the accesses of one of them. -/
theorem history_filter {s t : Tia} (hle : s.beam.lineLeft ≤ lineClocks) {start : Nat}
    (halike : ∀ access : Access, start ≤ access.cycles → t.perform access = s.perform access)
    (run : List Visit) (hstart : ∀ visit ∈ run, start ≤ visit.access.cycles)
    (hsorted : run.Pairwise fun first second ↦ first.access.cycles ≤ second.access.cycles)
    (hextra : ∀ visit ∈ run, visit.isExtra → visit.access.isRead) :
    (t.history run).filter (fun entry ↦ !entry.1.isExtra) =
      s.history (run.filter fun visit ↦ !visit.isExtra) := by
  induction run generalizing s t start with
  | nil => rfl
  | cons visit rest ih =>
    obtain ⟨hlater, hrest⟩ := List.pairwise_cons.mp hsorted
    have hvisit : t.perform visit.access = s.perform visit.access :=
      halike visit.access (hstart visit List.mem_cons_self)
    have hextraRest : ∀ visit ∈ rest, visit.isExtra → visit.access.isRead := by
      intro visit hmem
      exact hextra visit (List.mem_cons_of_mem _ hmem)
    rcases hkind : visit.isExtra with _ | _
    · simp only [history, List.filter_cons, hkind, hvisit, Bool.not_false, if_true]
      rw [ih (perform_lineLeft_le hle visit.access) (fun _ _ ↦ rfl) hlater hrest hextraRest]
    · simp only [history, List.filter_cons, hkind, Bool.not_true, Bool.false_eq_true, if_false]
      -- The program goes on from `s`, the run with the extra read from where the read has left it.
      apply ih hle ?_ hlater hrest hextraRest
      intro access hnow
      have hread := hextra visit List.mem_cons_self hkind
      have hafter : (t.perform visit.access).2 = s.catchUp (clockOf visit.access.cycles) := by
        rw [hvisit]
        match visit.access, hread with
        | .read cycles dataBus ports address, _ => rfl
      rw [hafter]
      exact perform_catchUp hle access (clockOf_le_clockOf hnow)

/-- It does not matter when the beam catches up.  Doing it at two clocks is doing it at the later one, and
from the accesses that the program itself makes no answer and nothing of the chip shows how many reads were
made between them. -/
theorem catchUp_unobservable {s : Tia} (hle : s.beam.lineLeft ≤ lineClocks) :
    (∀ first second, (s.catchUp first).catchUp second = s.catchUp (max first second)) ∧
      ∀ run : List Visit,
        (run.Pairwise fun first second ↦ first.access.cycles ≤ second.access.cycles) →
        (∀ visit ∈ run, visit.isExtra → visit.access.isRead) →
        (s.history run).filter (fun entry ↦ !entry.1.isExtra) =
          s.history (run.filter fun visit ↦ !visit.isExtra) :=
  ⟨catchUp_catchUp hle, fun run hsorted hextra ↦
    history_filter hle (fun _ _ ↦ rfl) run (fun _ _ ↦ Nat.zero_le _) hsorted hextra⟩

/-- A background colour stored in the picture, an extra read, and a read of the program's own. -/
theorem catchUp_unobservable_of_read :
    let s := (Tia.new {}).beginFrame 0
    let write : Visit := ⟨.write 2700 true 0x09 0x1E, false⟩
    let extra : Visit := ⟨.read 2720 0 {} 0x02, true⟩
    let read : Visit := ⟨.read 2750 0 {} 0x07, false⟩
    (s.catchUp 8100).catchUp 8200 = s.catchUp 8200 ∧
      (s.history [write, extra, read]).filter (fun entry ↦ !entry.1.isExtra) =
        s.history [write, read] := by
  intro s write extra read
  obtain ⟨htwice, hrun⟩ := catchUp_unobservable (s := s) (Nat.le_refl lineClocks)
  exact ⟨htwice 8100 8200, hrun [write, extra, read] (by decide) (by decide)⟩

end Vcs.Tia
