/-!
# Rows

The 160 visible columns of a scanline, closed to a ring: what runs off the right edge comes back at the
left.  Patterns are laid out by painting runs of cells onto a blank row.
-/

namespace Vcs.Tia

/-- Visible columns of a scanline. -/
abbrev columns : Nat := 160

/-- One cell for every column. -/
abbrev Row (α : Type) := Vector α columns

namespace Row

variable {α : Type}

/-- The same cell everywhere. -/
def blank (cell : α) : Row α :=
  .replicate columns cell

/-- Lays `length` cells from column `start` on; the `i`-th of them is `cell i`. -/
def paint (row : Row α) (start : Nat) (cell : Nat → α) : (length : Nat) → Row α
  | 0 => row
  | length + 1 =>
    (row.paint start cell length).set ((start + length) % columns) (cell length)
      (Nat.mod_lt _ (by decide))

/-- Lays the same run of cells at several starts, one after the other. -/
def paintAll (row : Row α) (starts : List Nat) (cell : Nat → α) (length : Nat) : Row α :=
  starts.foldl (fun row start ↦ row.paint start cell length) row

end Row

end Vcs.Tia
