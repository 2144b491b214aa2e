import Mathlib.Logic.Function.Iterate
import Mathlib.Order.Nat
import Vcs.Proofs.Processor.Replay

/-!
# Runs in Slices

A run takes one instruction after another and looks, after each of them, whether it is to go on.  So it ends in
one of three ways: it has spent its budget, or the first instruction that left a request to stop was its last,
or an instruction has faulted.  A run that has spent its budget with no request can be taken up where it ended,
and the two of them are one run with both budgets.
-/

namespace Vcs.Processor

variable {β : Type} [Bus β]

/-- The processor after some instructions, whatever they come to. -/
def stepped (p : Processor β) (count : Nat) : Processor β :=
  (fun p ↦ p.step.2)^[count] p

/-- The next instruction is executed and leaves no request to stop. -/
def Continues (p : Processor β) : Prop :=
  (∃ cycles, p.step.1 = .ok cycles) ∧ Bus.stopRequested p.step.2.bus = false

/-- None of the first `count` instructions faults or leaves a request to stop. -/
def GoesOn (p : Processor β) (count : Nat) : Prop :=
  ∀ done < count, (p.stepped done).Continues

theorem stepped_succ (p : Processor β) (count : Nat) :
    p.stepped (count + 1) = (p.stepped count).step.2 :=
  Function.iterate_succ_apply' _ count p

theorem stepped_step (p : Processor β) (count : Nat) :
    p.step.2.stepped count = p.stepped (count + 1) := rfl

theorem stepped_add (p : Processor β) (first second : Nat) :
    p.stepped (first + second) = (p.stepped first).stepped second := by
  rw [stepped, Nat.add_comm, Function.iterate_add_apply]
  rfl

theorem GoesOn.add {p : Processor β} {first second : Nat} (hfirst : p.GoesOn first)
    (hsecond : (p.stepped first).GoesOn second) : p.GoesOn (first + second) := by
  intro done hlt
  by_cases hearly : done < first
  · exact hfirst done hearly
  · obtain ⟨later, rfl⟩ := Nat.exists_eq_add_of_le (Nat.le_of_not_lt hearly)
    rw [stepped_add]
    exact hsecond later (by omega)

/-- The instructions executed before only count. -/
theorem runFrom_eq_run (p : Processor β) (done budget : Nat) :
    p.runFrom done budget = ((p.run budget).1.map (done + ·), (p.run budget).2) := by
  have hshift (before : Nat) : p.runFrom (done + before) budget =
      ((p.runFrom before budget).1.map (done + ·), (p.runFrom before budget).2) := by
    induction budget generalizing p before with
    | zero => rfl
    | succ budget ih =>
      rcases hstep : p.step with ⟨_ | cycles, next⟩
      · simp only [runFrom, hstep]
        rfl
      · simp only [runFrom, hstep]
        split
        · rfl
        · exact ih next (before + 1)
  exact hshift 0

theorem runFrom_of_goesOn {p : Processor β} {count : Nat} (h : p.GoesOn count) (done rest : Nat) :
    p.runFrom done (count + rest) = (p.stepped count).runFrom (done + count) rest := by
  induction count generalizing rest with
  | zero => rw [Nat.zero_add, Nat.add_zero, stepped, Function.iterate_zero_apply]
  | succ count ih =>
    have hearlier : p.GoesOn count := fun earlier hlt ↦ h earlier (Nat.lt_succ_of_lt hlt)
    obtain ⟨⟨cycles, hresult⟩, hstop⟩ := h count (Nat.lt_succ_self count)
    have hbudget : count + 1 + rest = count + (rest + 1) := by omega
    rw [hbudget, ih hearlier, stepped_succ]
    rcases hstep : (p.stepped count).step with ⟨result, next⟩
    rw [hstep] at hresult hstop
    cases hresult
    simp only [runFrom, hstep, hstop, Bool.false_eq_true, if_false]
    rfl

theorem run_of_goesOn {p : Processor β} {count : Nat} (h : p.GoesOn count) :
    p.run count = (.ok count, p.stepped count) := by
  have hrun := runFrom_of_goesOn h 0 0
  rwa [Nat.add_zero, Nat.zero_add] at hrun

/-- A run that was not stopped and the run that takes it up are one. -/
theorem run_add {p : Processor β} {first : Nat} (h : p.GoesOn first) (second : Nat) :
    p.run (first + second) =
      (((p.stepped first).run second).1.map (first + ·), ((p.stepped first).run second).2) :=
  calc
    p.run (first + second) = (p.stepped first).runFrom (0 + first) second :=
      runFrom_of_goesOn h 0 second
    _ = (p.stepped first).runFrom first second := by rw [Nat.zero_add]
    _ = _ := runFrom_eq_run _ first second

/-- The three ways in which a run can end, each with its result. -/
inductive Ending (p : Processor β) (budget : Nat) : Except Fault Nat × Processor β → Prop where
  | spent (goesOn : p.GoesOn budget) : Ending p budget (.ok budget, p.stepped budget)
  | stopped {count cycles : Nat} (lt_budget : count < budget) (goesOn : p.GoesOn count)
      (executed : (p.stepped count).step.1 = .ok cycles)
      (stopRequested : Bus.stopRequested (p.stepped (count + 1)).bus = true) :
      Ending p budget (.ok (count + 1), p.stepped (count + 1))
  | faulted {count : Nat} {fault : Fault} (lt_budget : count < budget) (goesOn : p.GoesOn count)
      (faults : (p.stepped count).step.1 = .error fault) :
      Ending p budget (.error fault, p.stepped (count + 1))

theorem run_ending (p : Processor β) (budget : Nat) : p.Ending budget (p.run budget) := by
  classical
  by_cases h : p.GoesOn budget
  · rw [run_of_goesOn h]
    exact .spent h
  · have hfails : ∃ count, count < budget ∧ ¬(p.stepped count).Continues := by
      simpa only [GoesOn, not_forall, exists_prop] using h
    -- The first instruction after which the run does not go on.
    let count := Nat.find hfails
    obtain ⟨hlt, hlast⟩ := Nat.find_spec hfails
    have hgoesOn : p.GoesOn count := by
      intro done hdone
      by_contra hnot
      exact Nat.find_min hfails hdone ⟨hdone.trans hlt, hnot⟩
    obtain ⟨rest, hrest⟩ := Nat.exists_eq_add_of_lt hlt
    have hrun : p.run budget = (p.stepped count).runFrom count (rest + 1) := by
      have hfrom := runFrom_of_goesOn hgoesOn 0 (rest + 1)
      rw [Nat.zero_add] at hfrom
      rw [run, ← hfrom, hrest, Nat.add_assoc]
    have hnext := p.stepped_succ count
    rw [hrun]
    rcases hstep : (p.stepped count).step with ⟨fault | cycles, next⟩
    · rw [hstep] at hnext
      subst hnext
      simp only [runFrom, hstep]
      exact .faulted hlt hgoesOn (congrArg Prod.fst hstep)
    · rw [hstep] at hnext
      subst hnext
      have hstop : Bus.stopRequested (p.stepped (count + 1)).bus = true := by
        by_contra hnone
        have hgoes : (p.stepped count).Continues := by
          rw [Continues, hstep]
          exact ⟨⟨cycles, rfl⟩, Bool.eq_false_iff.mpr hnone⟩
        exact hlast hgoes
      simp only [runFrom, hstep, hstop, if_true]
      exact .stopped hlt hgoesOn (congrArg Prod.fst hstep) hstop

/-- A run that has not faulted and leaves no request to stop has not been stopped. -/
theorem goesOn_of_run {p last : Processor β} {budget count : Nat} (h : p.run budget = (.ok count, last))
    (hstop : Bus.stopRequested last.bus = false) :
    count = budget ∧ p.GoesOn budget ∧ last = p.stepped budget := by
  have hending := p.run_ending budget
  rw [h] at hending
  cases hending with
  | spent hgoesOn => exact ⟨rfl, hgoesOn, rfl⟩
  | stopped _ _ _ hrequest => exact absurd (hstop.symm.trans hrequest) Bool.false_ne_true

/-- A run that has not faulted needs no more of its budget than it has spent. -/
theorem run_of_ok {p last : Processor β} {budget count : Nat} (h : p.run budget = (.ok count, last)) :
    p.run count = (.ok count, last) := by
  have hending := p.run_ending budget
  rw [h] at hending
  cases hending with
  | spent hgoesOn => exact h
  | @stopped count cycles hlt hgoesOn hexecuted hstop =>
    have hlast : p.run (count + 1) = (p.stepped count).runFrom (0 + count) 1 :=
      runFrom_of_goesOn hgoesOn 0 1
    rw [hlast, Nat.zero_add]
    rw [stepped_succ] at hstop ⊢
    rcases hstep : (p.stepped count).step with ⟨result, next⟩
    rw [hstep] at hexecuted hstop
    cases hexecuted
    simp only [runFrom, hstep, hstop, if_true]

end Vcs.Processor
