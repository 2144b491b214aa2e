/-!
# Bus

What the processor needs of the system it drives.  After an access the data bus still holds the byte that
was transferred, so a read is a change of the bus followed by a look at its latch.  The bus also counts
time: the processor reports every cycle it spends, and asks between instructions whether some device
wants it to stop.
-/

namespace Vcs

/-- A system seen from the pins of the processor. -/
class Bus (β : Type) where
  /-- Reads an address; the byte is left on the data bus. -/
  read : UInt16 → β → β
  /-- Writes a byte to an address. -/
  write : UInt16 → UInt8 → β → β
  /-- The byte on the data bus. -/
  latch : β → UInt8
  /-- Accounts for processor cycles. -/
  elapse : Nat → β → β
  /-- Some device has asked the processor to stop. -/
  stopRequested : β → Bool

end Vcs
