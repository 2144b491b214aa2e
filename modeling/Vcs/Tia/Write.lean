import Vcs.Tia.Render

/-!
# Register Writes

A write first lets the beam catch up to the clock at which it takes effect, then stores its byte and does
what the register is for.  Many registers only keep their byte; the others refresh what is derived from
it, strobe a position, or ask something of the processor.
-/

namespace Vcs.Tia

/-- Cuts the frame off if a clock is past the scanline ceiling. -/
def enforceCeiling (s : Tia) (clock : Int) : Tia × Response :=
  let ceiling := s.settings.ceiling
  if (ceiling.toNat : Int) < s.beam.scanline clock then
    ({ s with frame := { s.frame with drawing := false, overrun := true } },
      { stop := true
        events := if s.frame.overrun then [] else [.ceilingPassed ceiling] })
  else (s, {})

/-- Changes the objects. -/
@[inline]
def mapObjects (s : Tia) (change : Objects → Objects) : Tia :=
  { s with objects := change s.objects }

/-- Vertical sync.  Releasing it ends the frame if it was held for a line; the result says so. -/
def writeSync (s : Tia) (previous value : UInt8) (clock : Int) : Bool × Tia :=
  let s :=
    if value &&& 0x02 != 0 && previous &&& 0x02 == 0 then
      { s with span := { s.span with syncOn := s.beam.scanline clock } }
    else s
  if value &&& 0x02 != 0 then
    (false, { s with frame := { s.frame with syncDue := clock + lineClocks } })
  else if s.frame.syncDue ≤ clock then
    (true, { s with frame := { s.frame with syncDue := syncIdle, drawing := false } })
  else (false, s)

/-- The span of the picture when vertical blank is switched on at a scanline.  If it was switched off in
the frame before, the lines up to vertical sync belong to the span as well. -/
def PictureSpan.blankedAt (span : PictureSpan) (scanline : Int) : PictureSpan :=
  let plain := scanline - span.blankOff
  let height := if plain < 0 then plain + span.syncOn else plain
  let span := { span with blankOn := scanline }
  if height < frameHeightMin then span
  else
    let first := if span.syncOn ≤ span.blankOff then span.blankOff - span.syncOn else span.blankOff
    { span with first := first, stop := first + height }

/-- Vertical blank, and the switch that grounds the paddle capacitors. -/
def writeBlank (s : Tia) (previous value : UInt8) (clock : Int) (cycles : Nat) : Tia :=
  let wasOn := previous &&& 0x02 != 0
  let isOn := value &&& 0x02 != 0
  let span :=
    if isOn && !wasOn then s.span.blankedAt (s.beam.scanline clock)
    else if wasOn && !isOn then { s.span with blankOff := s.beam.scanline clock }
    else s.span
  let wasGrounded := previous &&& 0x80 != 0
  let isGrounded := value &&& 0x80 != 0
  let charge :=
    if isGrounded && !wasGrounded then { s.charge with grounded := true }
    else if wasGrounded && !isGrounded then { grounded := false, since := cycles : Charge }
    else s.charge
  { s with span := span, charge := charge }

/-- Cycles from a processor cycle to the start of the next scanline, none at the start of one. -/
def cyclesToLineStart (s : Tia) (cycles : Nat) : Nat :=
  let start := s.beam.frameStart / clocksPerCycle
  let left := lineCycles - ((cycles - start) % lineCycles).toNat
  if left < lineCycles then left else 0

/-- Column a strobe puts an object on: `latency` columns behind the beam, or a fixed one during the blank
at the start of the line. -/
def strobeColumn (lineClock latency inBlank : Nat) : UInt8 :=
  if lineClock < blankClocks then UInt8.ofNat inBlank
  else UInt8.ofNat ((lineClock - blankClocks + latency) % columns)

/-- Strobes a player's position.  A copy that is being drawn is finished first, and unless the strobe falls
into a start delay the copy at the new position waits for the next line. -/
def strobePlayer (s : Tia) (which : Which) (clock : Int) : Tia :=
  let position := strobeColumn (s.beam.lineClock clock) 5 3
  let old := (s.objects.players.get which).position
  match StrobeTiming.classify (s.objects.sizeMode which) old position with
  | .midCopy => (s.catchUp (clock + 11)).mapObjects (·.placePlayer which position true)
  | .clear => s.mapObjects (·.placePlayer which position true)
  | .inDelay => s.mapObjects (·.placePlayer which position false)

/-- Column of a missile or ball strobe, unless it follows a motion strobe too closely. -/
def lineStrobeColumn (s : Tia) (clock : Int) : UInt8 :=
  strobeColumn (s.beam.lineClock clock) 4 2

/-- Strobes a missile's position.  A few distances from a motion strobe give a column of their own. -/
def strobeMissile (s : Tia) (which : Which) (clock : Int) : Tia :=
  let since := clock - s.lastMotion
  let lineClock := s.beam.lineClock clock
  let position :=
    match which with
    | .zero => if since = 60 ∧ lineClock = 69 then 8 else s.lineStrobeColumn clock
    | .one => if since = 9 ∧ lineClock = 18 then 3 else s.lineStrobeColumn clock
  s.mapObjects (·.placeMissile which position)

/-- Strobes the ball's position, likewise. -/
def strobeBall (s : Tia) (clock : Int) : Tia :=
  let since := clock - s.lastMotion
  let lineClock := s.beam.lineClock clock
  let position :=
    if since = 54 ∧ (lineClock = 60 ∨ lineClock = 69) then 10
    else if since = 9 ∧ lineClock = 18 then 3
    else if since = 21 ∧ lineClock = 30 then 6
    else if since = 18 ∧ lineClock = 27 then 5
    else s.lineStrobeColumn clock
  s.mapObjects (·.placeBall position)

/-- Strobes the motion of all objects. -/
def strobeMotion (s : Tia) (clock : Int) : Tia :=
  let cycle := s.beam.lineCycle clock
  { s with
    blankPending := s.blankPending || s.settings.motionBlanks && Motion.blanksEdge cycle
    objects := s.objects.move cycle
    lastMotion := clock }

/-- Column of a missile relative to the player that lets go of it, by size mode. -/
def releaseOffset (mode : UInt8) : Nat :=
  match mode with
  | 5 => 8
  | 7 => 16
  | _ => 4

/-- Locks a missile to its player or lets go of it, in the middle of the player. -/
def writeMissileLock (s : Tia) (which : Which) (previous value : UInt8) : Tia :=
  s.mapObjects fun o ↦
    let o :=
      if previous &&& 0x02 != 0 && value &&& 0x02 == 0 then
        let position := (o.players.get which).position.toNat + releaseOffset (o.sizeMode which)
        o.placeMissile which (UInt8.ofNat (position % columns))
      else o
    o.refreshMissileEnable which

/-- Stores a colour.  Its lowest bit marks lost colour and is not the program's to set. -/
def writeColor (s : Tia) (register : Register) (value : UInt8) : Tia :=
  let lost := s.settings.colorLoss && s.frame.lastLength % 2 != 0
  let color := (value &&& 0xFE) ||| if lost then 0x01 else 0
  s.mapObjects fun o ↦ { o with registers := o.registers.set register color }

/-- Reflects a player's graphic if its reflection has changed. -/
def writeReflection (s : Tia) (which : Which) (previous value : UInt8) : Tia :=
  if (previous ^^^ value) &&& 0x08 != 0 then
    s.mapObjects fun o ↦
      { o with
        players := o.players.modify which fun player ↦
          { player with graphic := reflect player.graphic } }
  else s

/-- Writing a player's graphic also hands the other player's graphic to its vertical delay. -/
def writeGraphic0 (s : Tia) : Tia :=
  s.mapObjects fun o ↦
    let other := o.registers.get .grp1
    let o := { o with players := { o.players with one := { o.players.one with delayed := other } } }
    (o.refreshGraphic .zero).refreshGraphic .one

/-- The second player's graphic does so for the ball too. -/
def writeGraphic1 (s : Tia) : Tia :=
  s.mapObjects fun o ↦
    let other := o.registers.get .grp0
    let ball := o.registers.test .enabl 0x02
    let o := { o with
      players := { o.players with zero := { o.players.zero with delayed := other } }
      ball := { o.ball with delayed := ball } }
    ((o.refreshGraphic .zero).refreshGraphic .one).refreshBallEnable

/-- Clears all motion registers. -/
def clearMotion (s : Tia) : Tia :=
  s.mapObjects fun o ↦
    { o with
      registers := [Register.hmp0, .hmp1, .hmm0, .hmm1, .hmbl].foldl
        (fun file register ↦ file.set register 0) o.registers }

/-- Whether a write to the motion of missile 0 arms the star field: its nibble changes from seven to six
twenty-one cycles after a motion strobe. -/
def armsStarField (s : Tia) (previous value : UInt8) (clock : Int) : Bool :=
  clock == s.lastMotion + 63 && previous >>> 4 == 7 && value >>> 4 == 6

/-- Does what a register is for, its byte having been stored. -/
def actOn (s : Tia) (register : Register) (previous value : UInt8) (clock : Int) (cycles : Nat)
    (afterRead : Bool) (response : Response) : Tia × Response :=
  match register with
  | .vsync =>
    let (released, s) := s.writeSync previous value clock
    (s, if released then { response with stop := true } else response)
  | .vblank => (s.writeBlank previous value clock cycles, response)
  | .wsync =>
    (s, if afterRead then { response with stall := s.cyclesToLineStart cycles } else response)
  | .nusiz0 => (s.mapObjects fun o ↦ (o.refreshPlayerMask .zero).refreshMissileMask .zero, response)
  | .nusiz1 => (s.mapObjects fun o ↦ (o.refreshPlayerMask .one).refreshMissileMask .one, response)
  | .colup0 | .colup1 | .colupf | .colubk => (s.writeColor register value, response)
  | .ctrlpf =>
    (s.mapObjects fun o ↦ { o with modes := (value &&& 0x06) <<< 5 }.refreshBallMask, response)
  | .refp0 => (s.writeReflection .zero previous value, response)
  | .refp1 => (s.writeReflection .one previous value, response)
  | .pf0 | .pf1 | .pf2 => (s.mapObjects (·.refreshPlayfield), response)
  | .resp0 => (s.strobePlayer .zero clock, response)
  | .resp1 => (s.strobePlayer .one clock, response)
  | .resm0 => (s.strobeMissile .zero clock, response)
  | .resm1 => (s.strobeMissile .one clock, response)
  | .resbl => (s.strobeBall clock, response)
  | .audc0 | .audc1 | .audf0 | .audf1 | .audv0 | .audv1 =>
    (s, { response with sound := some (UInt8.ofNat register.address, value) })
  | .grp0 => (s.writeGraphic0, response)
  | .grp1 => (s.writeGraphic1, response)
  | .enam0 => (s.mapObjects (·.refreshMissileEnable .zero), response)
  | .enam1 => (s.mapObjects (·.refreshMissileEnable .one), response)
  | .enabl | .vdelbl => (s.mapObjects (·.refreshBallEnable), response)
  | .vdelp0 => (s.mapObjects (·.refreshGraphic .zero), response)
  | .vdelp1 => (s.mapObjects (·.refreshGraphic .one), response)
  | .hmm0 =>
    if s.armsStarField previous value clock then
      (s.mapObjects fun o ↦ { o with starField := { armed := true, phase := 0 } },
        { response with events := response.events ++ [.starFieldArmed] })
    else (s, response)
  | .resmp0 => (s.writeMissileLock .zero previous value, response)
  | .resmp1 => (s.writeMissileLock .one previous value, response)
  | .hmove => (s.strobeMotion clock, response)
  | .hmclr => (s.clearMotion, response)
  | .cxclr => ({ s with collisions := 0 }, response)
  | .rsync | .hmp0 | .hmp1 | .hmm1 | .hmbl => (s, response)

/-- Writes a byte to an address at a processor cycle; `afterRead` says whether the processor's access before
this one was a read. -/
def write (s : Tia) (cycles : Nat) (afterRead : Bool) (address : UInt16) (value : UInt8) :
    Tia × Response :=
  let clock := clockOf cycles
  match Register.ofAddress? address.toUInt8 with
  | none => (s.catchUp clock).enforceCeiling clock
  | some register =>
    let delay := register.delayOn (s.beam.lineCycle clock)
    let (s, response) := (s.catchUp (clock + delay)).enforceCeiling clock
    let previous := s.objects.registers.get register
    let s := s.mapObjects fun o ↦ { o with registers := o.registers.set register value }
    s.actOn register previous value clock cycles afterRead response

end Vcs.Tia
