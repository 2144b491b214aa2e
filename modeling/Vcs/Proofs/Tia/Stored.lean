import Vcs.Proofs.Tia.Frame

/-!
# Stored Bytes

Every write register keeps a byte.  The beam leaves the registers alone, and what a register is for changes at
most the byte of its own, but for the strobe that clears the motion registers.  So a byte is known by the writes
to its register.
-/

namespace Vcs.Tia

theorem sweep_registers (s : Tia) (clock : Int) :
    (s.sweep clock).objects.registers = s.objects.registers := by
  have hstretch (t : Tia) (start count : Nat) : (t.drawStretch start count).objects = t.objects := by
    unfold drawStretch blankEdge drawSegment
    dsimp only
    split_ifs <;> rfl
  unfold sweep
  dsimp only
  split
  · simp only [endLine_registers, hstretch]
  · simp only [hstretch]

theorem catchUp_registers (s : Tia) (clock : Int) :
    (s.catchUp clock).objects.registers = s.objects.registers :=
  catchUp_of_sweep (·.objects.registers) sweep_registers s clock

theorem Objects.move_registers (o : Objects) (cycle : Nat) : (o.move cycle).registers = o.registers := by
  have hplayer (o : Objects) (which : Which) (position : UInt8) (skipFirst : Bool) :
      (o.placePlayer which position skipFirst).registers = o.registers := rfl
  have hmissile (o : Objects) (which : Which) (position : UInt8) :
      (o.placeMissile which position).registers = o.registers := rfl
  have hball (o : Objects) (position : UInt8) : (o.placeBall position).registers = o.registers := rfl
  simp only [move, hplayer, hmissile, hball]

/-- The registers that one strobe clears. -/
def motionRegisters : List Register :=
  [.hmp0, .hmp1, .hmm0, .hmm1, .hmbl]

theorem get_foldl_set_of_notMem (file : RegisterFile) (change : RegisterFile → Register → UInt8)
    {registers : List Register} {other : Register} (h : other ∉ registers) :
    (registers.foldl (fun file register ↦ file.set register (change file register)) file).get other =
      file.get other := by
  induction registers generalizing file with
  | nil => rfl
  | cons register rest ih =>
    obtain ⟨hne, hrest⟩ := List.ne_and_not_mem_of_not_mem_cons h
    rw [List.foldl_cons, ih _ hrest, RegisterFile.get_set_of_ne _ hne.symm]

section

variable (s : Tia) {register other : Register} (hother : other ≠ register)
  (hmotion : other ∉ motionRegisters)

include hother hmotion

theorem actOn_get_of_ne (previous value : UInt8) (clock : Int) (cycles : Nat) (afterRead : Bool)
    (response : Response) :
    (s.actOn register previous value clock cycles afterRead response).1.objects.registers.get other =
      s.objects.registers.get other := by
  cases register with
  | vsync =>
    simp only [actOn, writeSync]
    split_ifs <;> rfl
  | colup0 | colup1 | colupf | colubk => exact RegisterFile.get_set_of_ne _ hother.symm _
  | hmclr => exact get_foldl_set_of_notMem s.objects.registers (fun _ _ ↦ 0) hmotion
  | hmove => simp only [actOn, strobeMotion, Objects.move_registers]
  | resp0 | resp1 =>
    simp only [actOn, strobePlayer]
    split <;> simp only [mapObjects, Objects.placePlayer, catchUp_registers]
  | refp0 | refp1 =>
    simp only [actOn, writeReflection]
    split <;> rfl
  | hmm0 =>
    simp only [actOn]
    split <;> rfl
  | resmp0 | resmp1 =>
    simp only [actOn, writeMissileLock, mapObjects]
    split <;> rfl
  | _ => rfl

end

theorem enforceCeiling_objects (s : Tia) (clock : Int) :
    (s.enforceCeiling clock).1.objects = s.objects := by
  obtain ⟨frame, hframe⟩ := s.enforceCeiling_eq clock
  rw [hframe]

/-- A write to another address leaves a byte alone, unless it is one that the strobe clears. -/
theorem write_get_of_ne (s : Tia) {address : UInt16} {other : Register} (hother : names address other = false)
    (hmotion : other ∉ motionRegisters) (cycles : Nat) (afterRead : Bool) (value : UInt8) :
    (s.write cycles afterRead address value).1.objects.registers.get other =
      s.objects.registers.get other := by
  simp only [names, decide_eq_false_iff_not] at hother
  rcases hregister : Register.ofAddress? address.toUInt8 with _ | register
  · simp only [write, hregister, enforceCeiling_objects, catchUp_registers]
  · have hne : other ≠ register := by
      rintro rfl
      exact hother hregister
    simp only [write, hregister, actOn_get_of_ne _ hne hmotion, mapObjects,
      RegisterFile.get_set_of_ne _ hne.symm, enforceCeiling_objects, catchUp_registers]

/-- A reset clears all bytes. -/
theorem reset_get (s : Tia) (cycles : Nat) (register : Register) :
    (s.reset cycles).1.objects.registers.get register = 0 := by
  simp [reset, powerOn, RegisterFile.get]

/-- The beginning of a frame changes the colours at most. -/
theorem beginFrame_get (s : Tia) (carry : Int) {register : Register} (h : register ∉ colorRegisters) :
    (s.beginFrame carry).objects.registers.get register = s.objects.registers.get register := by
  by_cases hloss : s.settings.colorLoss
  · simp only [beginFrame, hloss, if_true]
    exact get_foldl_set_of_notMem s.objects.registers (fun file color ↦
      if s.frame.lastLength % 2 != 0 then file.get color ||| 0x01 else file.get color &&& 0xFE) h
  · simp only [beginFrame, hloss]
    rfl

end Vcs.Tia
