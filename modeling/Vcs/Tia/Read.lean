import Vcs.Input.Ports
import Vcs.Tia.Render

/-!
# Register Reads

Sixteen read registers: the collision latches in pairs, four paddles and two buttons.  Only the upper two
bits are driven; the lower six show what was last on the data bus.
-/

namespace Vcs.Tia

/-- Bit 7, if the condition holds. -/
@[inline]
def highBit (on : Bool) : UInt8 :=
  if on then 0x80 else 0

/-- The two latches of a collision register. -/
def collisionLevel (s : Tia) (register : UInt8) : UInt8 :=
  let (d7, d6) := Collision.reported register
  highBit (s.collisions &&& d7 != 0) ||| if s.collisions &&& d6 != 0 then 0x40 else 0

/-- Cycles until a capacitor has charged through a resistance. -/
def chargeCycles (resistance : Ohms) : Nat :=
  let seconds : Float := 1.6 * resistance.toUInt64.toFloat * 0.01e-6
  (seconds * 1.19e6).floor.toUInt64.toNat

/-- Whether the capacitor of an analog pin is charged at a cycle. -/
def isCharged (s : Tia) (resistance : Ohms) (cycles : Nat) : Bool :=
  if resistance = Ohms.shorted then true
  else if resistance = Ohms.unconnected || s.charge.grounded then false
  else s.charge.since + chargeCycles resistance < cycles

/-- The driven bits of a read register. -/
def level (s : Tia) (cycles : Nat) (ports : Ports) (register : UInt8) : UInt8 :=
  match register with
  | 0x08 => highBit (s.isCharged (ports.resistance .left .nine) cycles)
  | 0x09 => highBit (s.isCharged (ports.resistance .left .five) cycles)
  | 0x0A => highBit (s.isCharged (ports.resistance .right .nine) cycles)
  | 0x0B => highBit (s.isCharged (ports.resistance .right .five) cycles)
  | 0x0C => highBit (ports.level .left .six)
  | 0x0D => highBit (ports.level .right .six)
  | 0x0E | 0x0F => 0
  | _ => s.collisionLevel register

/-- Reads an address at a processor cycle, `dataBus` being what was last on the data bus. -/
def read (s : Tia) (cycles : Nat) (dataBus : UInt8) (ports : Ports) (address : UInt16) :
    UInt8 × Tia :=
  let s := s.catchUp (clockOf cycles)
  (s.level cycles ports (address &&& 0x0F).toUInt8 ||| (dataBus &&& 0x3F), s)

end Vcs.Tia
