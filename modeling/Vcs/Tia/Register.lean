/-!
# Registers

The 45 write registers of the video chip.  Six address lines select one; the addresses above the last
register are decoded but nothing is there.
-/

namespace Vcs.Tia

/-- A write register. -/
inductive Register where
  | vsync | vblank | wsync | rsync
  | nusiz0 | nusiz1
  | colup0 | colup1 | colupf | colubk
  | ctrlpf | refp0 | refp1
  | pf0 | pf1 | pf2
  | resp0 | resp1 | resm0 | resm1 | resbl
  | audc0 | audc1 | audf0 | audf1 | audv0 | audv1
  | grp0 | grp1 | enam0 | enam1 | enabl
  | hmp0 | hmp1 | hmm0 | hmm1 | hmbl
  | vdelp0 | vdelp1 | vdelbl
  | resmp0 | resmp1
  | hmove | hmclr | cxclr
  deriving DecidableEq, Repr, Inhabited

namespace Register

/-- Registers in the order of their addresses. -/
def all : Vector Register 45 :=
  #v[vsync, vblank, wsync, rsync, nusiz0, nusiz1, colup0, colup1, colupf, colubk, ctrlpf, refp0,
    refp1, pf0, pf1, pf2, resp0, resp1, resm0, resm1, resbl, audc0, audc1, audf0, audf1, audv0,
    audv1, grp0, grp1, enam0, enam1, enabl, hmp0, hmp1, hmm0, hmm1, hmbl, vdelp0, vdelp1, vdelbl,
    resmp0, resmp1, hmove, hmclr, cxclr]

/-- Address of a register. -/
@[inline]
def address (register : Register) : Nat :=
  register.ctorIdx

theorem address_lt (register : Register) : register.address < 45 := by
  cases register <;> decide

theorem all_address (register : Register) :
    all.get ⟨register.address, register.address_lt⟩ = register := by
  cases register <;> rfl

theorem address_injective {register other : Register}
    (h : register.address = other.address) : register = other := by
  rw [← all_address register, ← all_address other]
  simp only [h]

/-- The register at an address of six bits, if there is one. -/
def ofAddress? (address : UInt8) : Option Register :=
  all.toArray[(address &&& 0x3F).toNat]?

/-- Colour clocks before a write to a register shows on the screen, if they are the same everywhere on
the line.  The playfield registers are read out in groups of four columns. -/
def delay? : Register → Option Nat
  | vblank | refp0 | refp1 | grp0 | grp1 => some 1
  | nusiz0 | nusiz1 | resm0 | resm1 => some 8
  | pf0 | pf1 | pf2 => none
  | _ => some 0

/-- Delay of a playfield write by the processor cycle of the line, modulo four. -/
def playfieldDelay (cycle : Nat) : Nat :=
  match cycle % 4 with
  | 0 => 4
  | 1 => 5
  | 2 => 2
  | _ => 3

/-- Delay of a write on processor cycle `cycle` of the line. -/
def delayOn (register : Register) (cycle : Nat) : Nat :=
  register.delay?.getD (playfieldDelay cycle)

end Register

/-- The byte last stored in every write register. -/
structure RegisterFile where
  cells : Vector UInt8 45 := .replicate 45 0

namespace RegisterFile

/-- The byte stored in a register. -/
@[inline]
def get (file : RegisterFile) (register : Register) : UInt8 :=
  have := register.address_lt
  file.cells[register.address]

/-- Stores a byte in a register. -/
@[inline]
def set (file : RegisterFile) (register : Register) (value : UInt8) : RegisterFile :=
  ⟨file.cells.set register.address value register.address_lt⟩

/-- Whether a register has any of these bits set. -/
@[inline]
def test (file : RegisterFile) (register : Register) (bits : UInt8) : Bool :=
  file.get register &&& bits != 0

@[simp]
theorem get_set_self (file : RegisterFile) (register : Register) (value : UInt8) :
    (file.set register value).get register = value := by
  simp [get, set]

theorem get_set_of_ne (file : RegisterFile) {register other : Register} (h : register ≠ other)
    (value : UInt8) : (file.set register value).get other = file.get other := by
  have hne : register.address ≠ other.address := fun e ↦ h (Register.address_injective e)
  simp [get, set, Vector.getElem_set_ne, hne]

end RegisterFile

end Vcs.Tia
