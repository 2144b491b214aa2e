import Mathlib.Tactic.SplitIfs
import Vcs.Proofs.Tia.Tick
import Vcs.Tia.Read
import Vcs.Tia.Write

/-!
# Register Accesses

A read or a write of the video chip at a processor cycle, with everything the chip is told about the rest of
the system: the byte on the data bus, the jacks, and whether the processor's access before was a read.  An
access lets the beam catch up first.  What it does to the chip afterwards leaves the screen alone, that is
the settings, the beam and the frame buffers, with one exception: the strobe of a player that is being drawn
looks ahead and lets the beam go on.
-/

namespace Vcs.Tia

/-- One access to the chip. -/
inductive Access where
  | read (cycles : Nat) (dataBus : UInt8) (ports : Ports) (address : UInt16)
  | write (cycles : Nat) (afterRead : Bool) (address : UInt16) (value : UInt8)

/-- What the rest of the system gets out of an access. -/
inductive Answer where
  | byte (value : UInt8)
  | response (response : Response)

namespace Access

/-- Processor cycle of an access. -/
def cycles : Access → Nat
  | read cycles .. => cycles
  | write cycles .. => cycles

def isRead : Access → Bool
  | read .. => true
  | write .. => false

end Access

/-- Carries out an access. -/
def perform (s : Tia) : Access → Answer × Tia
  | .read cycles dataBus ports address =>
    let (value, s) := s.read cycles dataBus ports address
    (.byte value, s)
  | .write cycles afterRead address value =>
    let (s, response) := s.write cycles afterRead address value
    (.response response, s)

/-- What only drawing changes. -/
structure Screen where
  settings : Settings
  video : Video
  beam : Beam

def screen (s : Tia) : Screen where
  settings := s.settings
  video := s.video
  beam := s.beam

@[simp]
theorem mapObjects_screen (s : Tia) (change : Objects → Objects) :
    (s.mapObjects change).screen = s.screen := rfl

@[simp]
theorem enforceCeiling_screen (s : Tia) (clock : Int) :
    (s.enforceCeiling clock).1.screen = s.screen := by
  unfold enforceCeiling
  dsimp only
  split <;> rfl

theorem writeSync_screen (s : Tia) (previous value : UInt8) (clock : Int) :
    (s.writeSync previous value clock).2.screen = s.screen := by
  unfold writeSync
  dsimp only
  split_ifs <;> rfl

/-- The strobe of a player. -/
def Which.resp : Which → Register
  | .zero => .resp0
  | .one => .resp1

theorem strobePlayer_screen (s : Tia) (which : Which) (clock : Int) :
    (s.strobePlayer which clock).screen = s.screen ∨
      (s.strobePlayer which clock).screen = (s.catchUp (clock + 11)).screen := by
  unfold strobePlayer
  dsimp only
  split
  · exact .inr rfl
  · exact .inl rfl
  · exact .inl rfl

/-- What a register is for leaves the screen alone, but for the look ahead of a player strobe. -/
theorem actOn_screen (s : Tia) (register : Register) (previous value : UInt8) (clock : Int)
    (cycles : Nat) (afterRead : Bool) (response : Response) :
    let after := (s.actOn register previous value clock cycles afterRead response).1
    after.screen = s.screen ∨
      (∃ which : Which, register = which.resp) ∧ after.screen = (s.catchUp (clock + 11)).screen := by
  intro after
  cases register with
  | vsync => exact .inl (s.writeSync_screen previous value clock)
  | resp0 => exact (s.strobePlayer_screen .zero clock).imp id fun h ↦ ⟨⟨.zero, rfl⟩, h⟩
  | resp1 => exact (s.strobePlayer_screen .one clock).imp id fun h ↦ ⟨⟨.one, rfl⟩, h⟩
  | hmove => simp only [after, actOn, strobeMotion, screen, true_or]
  | refp0 | refp1 =>
    refine .inl ?_
    simp only [after, actOn, writeReflection]
    split <;> rfl
  | hmm0 =>
    refine .inl ?_
    simp only [after, actOn]
    split <;> rfl
  | _ => exact .inl rfl

/-- The objects with the strobe of a player stored. -/
def Objects.withStrobe (o : Objects) (which : Which) (value : UInt8) : Objects :=
  { o with registers := o.registers.set which.resp value }

/-- The chip with the strobe of a player stored, whatever has become of the frame. -/
def withStrobe (s : Tia) (which : Which) (value : UInt8) (frame : FrameState) : Tia :=
  { s with frame := frame, objects := s.objects.withStrobe which value }

theorem enforceCeiling_eq (s : Tia) (clock : Int) :
    ∃ frame, (s.enforceCeiling clock).1 = { s with frame := frame } := by
  unfold enforceCeiling
  dsimp only
  split
  · exact ⟨_, rfl⟩
  · exact ⟨s.frame, rfl⟩

theorem enforceCeiling_syncDue (s : Tia) (clock : Int) :
    (s.enforceCeiling clock).1.frame.syncDue = s.frame.syncDue := by
  unfold enforceCeiling
  dsimp only
  split <;> rfl

/-- What a write makes of the screen: it catches up, and a player strobe may look ahead. -/
theorem write_screen (s : Tia) (cycles : Nat) (afterRead : Bool) (address : UInt16)
    (value : UInt8) :
    let after := (s.write cycles afterRead address value).1
    (∃ delay : Nat, after.screen = (s.catchUp (clockOf cycles + delay)).screen) ∨
      ∃ which frame, after.screen =
        (((s.catchUp (clockOf cycles)).withStrobe which value frame).catchUp
          (clockOf cycles + 11)).screen := by
  intro after
  simp only [after, write]
  split
  · refine .inl ⟨0, ?_⟩
    rw [enforceCeiling_screen]
    simp
  · next register _ =>
    let caught := s.catchUp (clockOf cycles + register.delayOn (s.beam.lineCycle (clockOf cycles)))
    obtain ⟨frame, hframe⟩ := caught.enforceCeiling_eq (clockOf cycles)
    have hstored : ((caught.enforceCeiling (clockOf cycles)).1.mapObjects fun o ↦
        { o with registers := o.registers.set register value }).screen = caught.screen := by
      rw [mapObjects_screen, enforceCeiling_screen]
    rcases actOn_screen _ register _ value (clockOf cycles) cycles afterRead _ with
      hkept | ⟨⟨which, rfl⟩, hahead⟩
    · exact .inl ⟨_, hkept.trans hstored⟩
    · have hdelay : which.resp.delayOn (s.beam.lineCycle (clockOf cycles)) = 0 := by
        cases which <;> rfl
      refine .inr ⟨which, frame, hahead.trans ?_⟩
      have hcaught : caught = s.catchUp (clockOf cycles) := by
        simp [caught, hdelay]
      have hstrobe : ((caught.enforceCeiling (clockOf cycles)).1.mapObjects fun o ↦
          { o with registers := o.registers.set which.resp value }) =
            caught.withStrobe which value frame := by
        rw [hframe]
        rfl
      rw [hstrobe, hcaught]

/-! ## Strobes and drawing

Drawing looks neither at the strobes nor at what has become of the frame, so the look ahead of a strobe is
nothing but more of the same picture. -/

theorem Which.resp_ne (which : Which) {register : Register} (h0 : register ≠ .resp0)
    (h1 : register ≠ .resp1) : which.resp ≠ register := by
  cases which
  · exact h0.symm
  · exact h1.symm

/-- Apart from the strobes themselves every register keeps its byte. -/
theorem get_withStrobe (o : Objects) (which : Which) (value : UInt8) {register : Register}
    (h0 : register ≠ .resp0) (h1 : register ≠ .resp1) :
    (o.withStrobe which value).registers.get register = o.registers.get register :=
  RegisterFile.get_set_of_ne _ (which.resp_ne h0 h1) value

theorem covering_withStrobe (o : Objects) (which : Which) (value : UInt8) (column : Nat) :
    (o.withStrobe which value).covering column = o.covering column := by
  have hctrlpf : (o.withStrobe which value).registers.test .ctrlpf 0x01 =
      o.registers.test .ctrlpf 0x01 :=
    congrArg (· &&& 0x01 != 0) (get_withStrobe o which value nofun nofun)
  simp only [Objects.covering, Objects.showsPlayfield, hctrlpf]
  rfl

theorem color_withStrobe (o : Objects) (which : Which) (value : UInt8) (column : Nat)
    (set : ObjectSet) : (o.withStrobe which value).color column set = o.color column set := by
  have hregister (source : ColorSource) :
      (o.withStrobe which value).registers.get (Objects.colorRegister source) =
        o.registers.get (Objects.colorRegister source) := by
    cases source <;> exact get_withStrobe o which value nofun nofun
  exact hregister _

theorem nusiz_withStrobe (o : Objects) (which copies : Which) (value : UInt8) :
    (o.withStrobe which value).registers.get copies.nusiz = o.registers.get copies.nusiz := by
  cases copies
  · exact get_withStrobe o which value nofun nofun
  · exact get_withStrobe o which value nofun nofun

theorem refreshPlayerMask_withStrobe (o : Objects) (which player : Which) (value : UInt8) :
    (o.withStrobe which value).refreshPlayerMask player =
      (o.refreshPlayerMask player).withStrobe which value := by
  simp only [Objects.refreshPlayerMask, Objects.sizeMode, nusiz_withStrobe]
  rfl

theorem stepStarField_withStrobe (o : Objects) (which : Which) (value : UInt8) :
    (o.withStrobe which value).stepStarField = o.stepStarField.withStrobe which value := by
  simp only [Objects.stepStarField, Objects.sizeMode, Objects.missileSize, nusiz_withStrobe]
  rfl

theorem endLine_withStrobe (o : Objects) (which : Which) (value : UInt8) :
    (o.withStrobe which value).endLine = o.endLine.withStrobe which value := by
  simp only [Objects.endLine, refreshPlayerMask_withStrobe, stepStarField_withStrobe]
  exact (apply_ite (Objects.withStrobe · which value) _ _ _).symm

theorem turnLine_withStrobe (s : Tia) (which : Which) (value : UInt8) (frame : FrameState) :
    (s.withStrobe which value frame).turnLine = s.turnLine.withStrobe which value frame := by
  by_cases hleft : s.beam.lineLeft = 0
  · have hstrobe : (s.withStrobe which value frame).beam.lineLeft = 0 := hleft
    have hend : (s.withStrobe which value frame).objects.endLine =
        s.objects.endLine.withStrobe which value := endLine_withStrobe s.objects which value
    rw [turnLine, turnLine, if_pos hleft, if_pos hstrobe, hend]
    rfl
  · have hstrobe : (s.withStrobe which value frame).beam.lineLeft ≠ 0 := hleft
    rw [turnLine, turnLine, if_neg hleft, if_neg hstrobe]

theorem drawColumn_withStrobe (s : Tia) (which : Which) (value : UInt8) (frame : FrameState)
    (column : Nat) :
    (s.withStrobe which value frame).drawColumn column =
      (s.drawColumn column).withStrobe which value frame := by
  have hblanked : (s.withStrobe which value frame).isBlanked = s.isBlanked :=
    congrArg (· &&& 0x02 != 0) (get_withStrobe s.objects which value nofun nofun)
  have hcovering : (s.withStrobe which value frame).objects.covering column =
      s.objects.covering column := covering_withStrobe s.objects which value column
  have hshade : (s.withStrobe which value frame).shade column = s.shade column := by
    have hcolor := color_withStrobe s.objects which value column (s.objects.covering column)
    rw [shade, shade, hblanked, hcovering]
    exact congrArg (if s.isBlanked || s.blankPending && column < 8 then 0 else ·) hcolor
  simp only [drawColumn, hblanked, hcovering, hshade]
  rfl

theorem tick_withStrobe (s : Tia) (which : Which) (value : UInt8) (frame : FrameState) :
    (s.withStrobe which value frame).tick = s.tick.withStrobe which value frame := by
  rw [tick, tick, turnLine_withStrobe]
  generalize s.turnLine = t
  by_cases hblank : lineClocks - t.beam.lineLeft < blankClocks
  · have hstrobe : lineClocks - (t.withStrobe which value frame).beam.lineLeft < blankClocks := hblank
    rw [sweepClock, sweepClock, if_pos hblank, if_pos hstrobe]
    rfl
  · have hstrobe : ¬ lineClocks - (t.withStrobe which value frame).beam.lineLeft < blankClocks :=
      hblank
    rw [sweepClock, sweepClock, if_neg hblank, if_neg hstrobe]
    exact drawColumn_withStrobe { t with beam := t.beam.ahead 1 } which value frame _

theorem ticks_withStrobe (s : Tia) (which : Which) (value : UInt8) (frame : FrameState)
    (count : Nat) :
    tick^[count] (s.withStrobe which value frame) =
      (tick^[count] s).withStrobe which value frame := by
  induction count generalizing s with
  | zero => rfl
  | succ count ih => rw [Function.iterate_succ_apply, tick_withStrobe, ih, Function.iterate_succ_apply]

theorem catchUp_withStrobe {s : Tia} (hle : s.beam.lineLeft ≤ lineClocks) (which : Which)
    (value : UInt8) (frame : FrameState) (clock : Int) :
    (s.withStrobe which value frame).catchUp clock =
      (s.catchUp clock).withStrobe which value frame := by
  have hstrobe : (s.withStrobe which value frame).beam.lineLeft ≤ lineClocks := hle
  rw [catchUp_eq_ticks hle, catchUp_eq_ticks hstrobe, ticks_withStrobe]
  rfl

end Vcs.Tia
