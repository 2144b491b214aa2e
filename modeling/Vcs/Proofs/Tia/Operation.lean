import Vcs.Proofs.Tia.CatchUp

/-!
# Runs of the Chip

Everything that can be done to the video chip from outside: register accesses, the start and the end of a
frame, a restart of the cycle counter, other settings and a reset.  A run starts with a chip that is new or
has just been reset.  Cycle counts may go back between accesses, and a frame may carry over any number of
clocks.
-/

namespace Vcs.Tia

/-- One thing done to the chip. -/
inductive Operation where
  | access (request : Access)
  | beginFrame (carry : Int)
  | finishFrame (cycles : Nat)
  /-- The cycle counter drops. -/
  | rebase (cycles : Nat)
  | setSettings (settings : Settings)
  | reset (cycles : Nat)

def operate (s : Tia) : Operation → Tia
  | .access request => (s.perform request).2
  | .beginFrame carry => s.beginFrame carry
  | .finishFrame cycles => (s.finishFrame cycles).2
  | .rebase cycles => s.rebase cycles
  | .setSettings settings => s.setSettings settings
  | .reset cycles => (s.reset cycles).1

def run (s : Tia) (operations : List Operation) : Tia :=
  operations.foldl operate s

/-- How a chip comes to be in its power-on state. -/
inductive PowerUp where
  | new (settings : Settings)
  | reset (before : Tia) (cycles : Nat)

/-- The chip in its power-on state. -/
def PowerUp.chip : PowerUp → Tia
  | new settings => Tia.new settings
  | reset before cycles => (before.reset cycles).1

/-- What holds of every chip in its power-on state and is kept by everything that can be done to a chip
holds all along a run. -/
theorem run_induction {motive : Tia → Prop} (start : PowerUp) (powerUp : motive start.chip)
    (step : ∀ s operation, motive s → motive (s.operate operation)) (operations : List Operation) :
    motive (start.chip.run operations) := by
  have hrun (s : Tia) (h : motive s) : motive (s.run operations) := by
    induction operations generalizing s with
    | nil => exact h
    | cons operation rest ih => exact ih (s.operate operation) (step s operation h)
  exact hrun start.chip powerUp

theorem powerUp_lineLeft_le (start : PowerUp) : start.chip.beam.lineLeft ≤ lineClocks := by
  cases start with
  | new settings => exact Nat.le_refl _
  | reset before cycles => exact Nat.le_refl _

theorem operate_lineLeft_le {s : Tia} (hle : s.beam.lineLeft ≤ lineClocks) (operation : Operation) :
    (s.operate operation).beam.lineLeft ≤ lineClocks := by
  cases operation with
  | access request => exact perform_lineLeft_le hle request
  | beginFrame carry => exact Nat.le_refl _
  | finishFrame cycles =>
    simp only [operate, finishFrame]
    split <;> exact hle
  | rebase cycles => exact hle
  | setSettings settings => exact hle
  | reset cycles => exact Nat.le_refl _

theorem run_lineLeft_le (start : PowerUp) (operations : List Operation) :
    (start.chip.run operations).beam.lineLeft ≤ lineClocks :=
  run_induction (motive := fun s ↦ s.beam.lineLeft ≤ lineClocks) start (powerUp_lineLeft_le start)
    (fun _ operation hle ↦ operate_lineLeft_le hle operation) operations

end Vcs.Tia
