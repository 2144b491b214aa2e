import Vcs.Proofs.Tia.Coverage
import Vcs.Proofs.Tia.DerivedState
import Vcs.Proofs.Tia.Frame

/-!
# Collisions and Colours

An access lets the beam pass some columns, and in each of them the chip draws a pixel and remembers which objects
met.  Here the columns that the beam passes are listed, with the chip as it is when the beam is there, and the list
is kept along a run until the latches are cleared.  Main statement: a latch is set if and only if the list has a
column that both its objects cover; the collision registers report the latches so, up to the cycle of the read; and
the pixels have the colours that go with the objects which cover their columns.
-/

namespace Vcs.Tia

/-- The beam is on a column. -/
structure Pass where
  chip : Tia
  column : Nat

namespace Pass

def covers (pass : Pass) (figure : Figure) : Bool :=
  pass.chip.objects.covers pass.column figure

/-- Both figures cover the column, and vertical blank is off.  A motion blank does not matter. -/
def joins (pass : Pass) (first second : Figure) : Bool :=
  !pass.chip.isBlanked && (pass.covers first && pass.covers second)

/-- The pixel that goes with what covers the column, black in vertical blank and where a motion blank is pending. -/
def pixel (pass : Pass) : UInt8 :=
  if pass.chip.isBlanked || pass.chip.blankPending && pass.column < 8 then 0
  else pass.chip.objects.registers.get
    (Objects.colorRegister (pass.chip.objects.colorSource pass.column))

/-- Draws the pixel where the beam is. -/
def paint (video : Video) (pass : Pass) : Video :=
  { video with current := Store.put pass.chip.beam.pointer pass.pixel video.current }

end Pass

/-- The column that the beam passes next, unless the line is blank there. -/
def pass? (s : Tia) : Option Pass :=
  if s.beam.nextClock < blankClocks then none
  else some { chip := s, column := s.beam.nextClock - blankClocks }

/-- The columns that the beam passes in some clocks. -/
def passes (s : Tia) : (clocks : Nat) → List Pass
  | 0 => []
  | clocks + 1 => s.pass?.toList ++ s.tick.passes clocks

/-- A collision latch: the two figures it watches, its place among the latches, and the register and the bit in which
it is read. -/
structure Latch where
  first : Figure
  second : Figure
  mask : UInt16
  register : UInt8
  bit : Nat

namespace Latch

def all : List Latch :=
  [⟨.missile .zero, .player .one, 0x0001, 0, 7⟩, ⟨.missile .zero, .player .zero, 0x0002, 0, 6⟩,
    ⟨.missile .one, .player .zero, 0x0004, 1, 7⟩, ⟨.missile .one, .player .one, 0x0008, 1, 6⟩,
    ⟨.player .zero, .playfield, 0x0010, 2, 7⟩, ⟨.player .zero, .ball, 0x0020, 2, 6⟩,
    ⟨.player .one, .playfield, 0x0040, 3, 7⟩, ⟨.player .one, .ball, 0x0080, 3, 6⟩,
    ⟨.missile .zero, .playfield, 0x0100, 4, 7⟩, ⟨.missile .zero, .ball, 0x0200, 4, 6⟩,
    ⟨.missile .one, .playfield, 0x0400, 5, 7⟩, ⟨.missile .one, .ball, 0x0800, 5, 6⟩,
    ⟨.ball, .playfield, 0x1000, 6, 7⟩,
    ⟨.player .zero, .player .one, 0x2000, 7, 7⟩, ⟨.missile .zero, .missile .one, 0x4000, 7, 6⟩]

def watches (latch : Latch) (first second : Figure) : Bool :=
  latch.first = first && latch.second = second || latch.first = second && latch.second = first

/-- Every two figures have one latch. -/
theorem count_watching {first second : Figure} (h : first ≠ second) :
    all.countP (·.watches first second) = 1 := by
  have hall : ∀ first ∈ Figure.all, ∀ second ∈ Figure.all, first ≠ second →
      all.countP (·.watches first second) = 1 := by decide
  exact hall first first.mem_all second second.mem_all h

/-- A set of figures sets the latches of all pairs in it. -/
theorem lookup_and_mask {set : ObjectSet} (hset : set.toNat < 64) {latch : Latch} (h : latch ∈ all) :
    (Collision.lookup set &&& latch.mask != 0) =
      (set.meets latch.first.member && set.meets latch.second.member) := by
  have hall : ∀ (number : Fin 64), ∀ latch ∈ all,
      (Collision.latches (UInt8.ofNat number) &&& latch.mask != 0) =
        (ObjectSet.meets (UInt8.ofNat number) latch.first.member &&
          ObjectSet.meets (UInt8.ofNat number) latch.second.member) := by
    decide +kernel
  have hlookup : Collision.lookup set = Collision.latches set := by
    simp only [Collision.lookup, Collision.table, Vector.getElem_ofFn, Nat.mod_eq_of_lt hset,
      UInt8.ofNat_toNat]
  have hnumber := hall ⟨set.toNat, hset⟩ latch h
  rwa [UInt8.ofNat_toNat, ← hlookup] at hnumber

end Latch

/-- Whether a latch is set. -/
def latched (s : Tia) (latch : Latch) : Bool :=
  s.collisions &&& latch.mask != 0

theorem pass?_eq_none {s : Tia} (h : s.pass? = none) : s.beam.nextClock < blankClocks := by
  by_contra hcolumn
  rw [pass?, if_neg hcolumn] at h
  cases h

theorem pass?_eq_some {s : Tia} {pass : Pass} (h : s.pass? = some pass) :
    pass.chip = s ∧ pass.column < columns ∧ s.beam.nextClock = blankClocks + pass.column := by
  have hlt : s.beam.nextClock < lineClocks := by
    simp only [Beam.nextClock, lineClocks]
    split <;> omega
  unfold pass? at h
  split at h
  · cases h
  · cases h
    simp only [lineClocks, blankClocks, columns] at *
    refine ⟨trivial, ?_, ?_⟩ <;> omega

/-- While a column is drawn the line does not end. -/
theorem turnLine_of_nextClock {s : Tia} {column : Nat}
    (h : s.beam.nextClock = blankClocks + column) : s.turnLine = s := by
  apply turnLine_of_pos
  simp only [Beam.nextClock, lineClocks, blankClocks] at h
  split at h <;> omega

theorem tick_video {s : Tia} (h : s.objects.Current) :
    s.tick.video = s.pass?.toList.foldl Pass.paint s.video := by
  rcases hpass : s.pass? with _ | pass
  · exact (tick_of_blank (pass?_eq_none hpass)).1
  · obtain ⟨hchip, hcolumn, hclock⟩ := pass?_eq_some hpass
    have hpixel : s.turnLine.shade pass.column = pass.pixel := by
      rw [turnLine_of_nextClock hclock, shade, Pass.pixel, hchip, h.color_eq hcolumn]
    rw [(tick_of_column hclock).1, hpixel, Option.toList_some, List.foldl_cons, List.foldl_nil,
      Pass.paint, hchip]

theorem tick_collisions_of_blank {s : Tia} (h : s.beam.nextClock < blankClocks) :
    s.tick.collisions = s.collisions := by
  have hturned : s.turnLine.collisions = s.collisions := by
    unfold turnLine
    split <;> rfl
  rw [← turnLine_lineLeft] at h
  rw [tick, sweepClock, if_pos h, ← hturned]

theorem tick_collisions_of_column {s : Tia} {column : Nat}
    (h : s.beam.nextClock = blankClocks + column) :
    s.tick.collisions = if s.isBlanked then s.collisions
      else s.collisions ||| Collision.lookup (s.objects.covering column) := by
  have hclock : lineClocks - s.beam.lineLeft = blankClocks + column := by
    rw [← h, ← turnLine_lineLeft, turnLine_of_nextClock h]
  have hcolumn : blankClocks + column - blankClocks = column := Nat.add_sub_cancel_left _ _
  rw [tick, turnLine_of_nextClock h, sweepClock, hclock, if_neg (by omega), hcolumn]
  rfl

theorem or_and_ne_zero (first second mask : UInt16) :
    ((first ||| second) &&& mask != 0) = (first &&& mask != 0 || second &&& mask != 0) := by
  have hdistrib : (first ||| second) &&& mask = first &&& mask ||| second &&& mask := by
    rw [← UInt16.toBitVec_inj]
    ext i hi
    simp [Bool.and_or_distrib_right]
  rw [hdistrib, Bool.eq_iff_iff]
  simp [UInt16.or_eq_zero_iff, imp_iff_not_or]

theorem tick_latched {s : Tia} (h : s.objects.Current) {latch : Latch} (hlatch : latch ∈ Latch.all) :
    s.tick.latched latch =
      (s.latched latch || s.pass?.toList.any (·.joins latch.first latch.second)) := by
  rcases hpass : s.pass? with _ | pass
  · rw [latched, tick_collisions_of_blank (pass?_eq_none hpass)]
    exact (Bool.or_false _).symm
  · obtain ⟨hchip, hcolumn, hclock⟩ := pass?_eq_some hpass
    have hcovers (figure : Figure) :
        (s.objects.covering pass.column).meets figure.member = pass.covers figure := by
      rw [h.covering_meets_eq hcolumn, Pass.covers, hchip]
    rw [latched, tick_collisions_of_column hclock, Option.toList_some, List.any_cons, List.any_nil,
      Bool.or_false, Pass.joins, hchip]
    by_cases hblanked : s.isBlanked
    · rw [if_pos hblanked, hblanked]
      exact (Bool.or_false _).symm
    · rw [if_neg hblanked, or_and_ne_zero, Latch.lookup_and_mask (s.objects.covering_lt _) hlatch,
        hcovers, hcovers, Bool.eq_false_of_not_eq_true hblanked]
      rfl

theorem ticks_video {s : Tia} (h : s.objects.Current) (clocks : Nat) :
    (tick^[clocks] s).video = (s.passes clocks).foldl Pass.paint s.video := by
  induction clocks generalizing s with
  | zero => rfl
  | succ clocks ih =>
    rw [Function.iterate_succ_apply, ih (tick_current h), tick_video h, passes, List.foldl_append]

theorem ticks_latched {s : Tia} (h : s.objects.Current) {latch : Latch} (hlatch : latch ∈ Latch.all)
    (clocks : Nat) :
    (tick^[clocks] s).latched latch =
      (s.latched latch || (s.passes clocks).any (·.joins latch.first latch.second)) := by
  induction clocks generalizing s with
  | zero => exact (Bool.or_false _).symm
  | succ clocks ih =>
    rw [Function.iterate_succ_apply, ih (tick_current h), tick_latched h hlatch, passes,
      List.any_append, Bool.or_assoc]

/-- Whether an access clears the latches. -/
def Access.clears : Access → Bool
  | .read .. => false
  | .write _ _ address _ => names address .cxclr

/-- The columns that the beam passes in an access. -/
def passesOf (s : Tia) (request : Access) : List Pass :=
  s.passes ((s.perform request).2.beam.drawnTo - s.beam.drawnTo).toNat

/-- A chip shows what some clocks of drawing leave: their screen and, unless these have been cleared, their latches. -/
structure Traces (s after : Tia) (cleared : Bool) (clocks : Nat) : Prop where
  screen : after.screen = (tick^[clocks] s).screen
  collisions : after.collisions = if cleared then 0 else (tick^[clocks] s).collisions

theorem actOn_collisions (s : Tia) {register : Register} (hfirst : register ≠ .resp0)
    (hsecond : register ≠ .resp1) (previous value : UInt8) (clock : Int) (cycles : Nat)
    (afterRead : Bool) (response : Response) :
    (s.actOn register previous value clock cycles afterRead response).1.collisions =
      if register = .cxclr then 0 else s.collisions := by
  have hsync : (s.writeSync previous value clock).2.collisions = s.collisions := by
    unfold writeSync
    dsimp only
    split_ifs <;> rfl
  cases register with
  | resp0 => exact absurd rfl hfirst
  | resp1 => exact absurd rfl hsecond
  | vsync => exact hsync
  | refp0 | refp1 =>
    simp only [actOn, writeReflection]
    split <;> rfl
  | hmm0 =>
    simp only [actOn]
    split <;> rfl
  | _ => rfl

theorem Traces.later {s after : Tia} {cleared : Bool} {first second : Nat}
    (h : Traces (tick^[first] s) after cleared second) : Traces s after cleared (second + first) where
  screen := by rw [h.screen, Function.iterate_add_apply]
  collisions := by rw [h.collisions, Function.iterate_add_apply]

/-- A strobe may let the beam go on, and it draws then as it would have drawn without the strobe. -/
theorem strobePlayer_traces {s : Tia} (hle : s.beam.lineLeft ≤ lineClocks) (which : Which)
    (value : UInt8) (frame : FrameState) (clock : Int) :
    ∃ clocks, Traces s ((s.withStrobe which value frame).strobePlayer which clock) false clocks := by
  have hahead : (s.withStrobe which value frame).catchUp (clock + 11) =
      (tick^[s.beam.due (clock + 11)] s).withStrobe which value frame := by
    rw [catchUp_withStrobe hle, catchUp_eq_ticks hle]
  unfold strobePlayer
  dsimp only
  split
  · rw [hahead]
    exact ⟨s.beam.due (clock + 11), rfl, rfl⟩
  · exact ⟨0, rfl, rfl⟩
  · exact ⟨0, rfl, rfl⟩

/-- What a register is for may let the beam go on or clear the latches, and leaves alone what has been drawn. -/
theorem actOn_traces {s : Tia} (hle : s.beam.lineLeft ≤ lineClocks) (frame : FrameState)
    (register : Register) (previous value : UInt8) (clock : Int) (cycles : Nat) (afterRead : Bool)
    (response : Response) :
    let stored := { s with frame := frame }.mapObjects (·.store register value)
    ∃ clocks, Traces s (stored.actOn register previous value clock cycles afterRead response).1
      (register = .cxclr) clocks := by
  intro stored
  by_cases hstrobe : ∃ which : Which, register = which.resp
  · obtain ⟨which, rfl⟩ := hstrobe
    obtain ⟨clocks, hclocks⟩ := strobePlayer_traces hle which value frame clock
    refine ⟨clocks, ?_⟩
    cases which <;> exact hclocks
  · have hfirst : register ≠ .resp0 := fun h ↦ hstrobe ⟨.zero, h⟩
    have hsecond : register ≠ .resp1 := fun h ↦ hstrobe ⟨.one, h⟩
    refine ⟨0, ?_, ?_⟩
    · rcases stored.actOn_screen register previous value clock cycles afterRead response with
        hkept | ⟨hwhich, -⟩
      · exact hkept
      · exact absurd hwhich hstrobe
    · rw [actOn_collisions _ hfirst hsecond]
      simp only [decide_eq_true_eq]
      rfl

theorem write_traces {s : Tia} (hle : s.beam.lineLeft ≤ lineClocks) (cycles : Nat)
    (afterRead : Bool) (address : UInt16) (value : UInt8) :
    ∃ clocks, Traces s (s.write cycles afterRead address value).1 (names address .cxclr) clocks := by
  rcases hregister : Register.ofAddress? address.toUInt8 with _ | register
  · have hnames : names address .cxclr = false := by simp [names, hregister]
    obtain ⟨frame, hframe⟩ := (s.catchUp (clockOf cycles)).enforceCeiling_eq (clockOf cycles)
    refine ⟨s.beam.due (clockOf cycles), ?_⟩
    rw [hnames, write, hregister]
    dsimp only
    rw [hframe, catchUp_eq_ticks hle]
    exact ⟨rfl, rfl⟩
  · let caught := s.catchUp (clockOf cycles + register.delayOn (s.beam.lineCycle (clockOf cycles)))
    have hnames : names address .cxclr = decide (register = .cxclr) := by
      simp [names, hregister]
    have hcaught : caught = tick^[s.beam.due _] s := catchUp_eq_ticks hle _
    obtain ⟨clocks, hclocks⟩ : ∃ clocks, Traces caught (s.write cycles afterRead address value).1
        (register = .cxclr) clocks := by
      obtain ⟨frame, hframe⟩ := caught.enforceCeiling_eq (clockOf cycles)
      rw [write, hregister]
      dsimp only
      rw [hframe]
      exact actOn_traces (catchUp_lineLeft_le hle _) frame register _ value _ cycles afterRead _
    rw [hcaught] at hclocks
    rw [hnames]
    exact ⟨_, hclocks.later⟩

theorem perform_traces {s : Tia} (hle : s.beam.lineLeft ≤ lineClocks) (request : Access) :
    ∃ clocks, Traces s (s.perform request).2 request.clears clocks ∧
      s.passesOf request = s.passes clocks := by
  obtain ⟨clocks, hclocks⟩ : ∃ clocks, Traces s (s.perform request).2 request.clears clocks := by
    cases request with
    | read cycles dataBus ports address =>
      refine ⟨s.beam.due (clockOf cycles), ?_⟩
      rw [perform, read, catchUp_eq_ticks hle]
      exact ⟨rfl, rfl⟩
    | write cycles afterRead address value => exact write_traces hle cycles afterRead address value
  have hbeam : (s.perform request).2.beam = (tick^[clocks] s).beam :=
    congrArg Screen.beam hclocks.screen
  have hcount : ((s.perform request).2.beam.drawnTo - s.beam.drawnTo).toNat = clocks := by
    rw [hbeam, ticks_drawnTo]
    omega
  exact ⟨clocks, hclocks, congrArg s.passes hcount⟩

/-- Every access draws the pixels of the columns that the beam passes in it. -/
theorem perform_video {s : Tia} (hle : s.beam.lineLeft ≤ lineClocks) (h : s.objects.Current)
    (request : Access) :
    (s.perform request).2.video = (s.passesOf request).foldl Pass.paint s.video := by
  obtain ⟨clocks, hclocks, hpasses⟩ := perform_traces hle request
  rw [hpasses, ← ticks_video h]
  exact congrArg Screen.video hclocks.screen

/-- The columns that the beam has passed since the latches were last cleared, after one more operation. -/
def remember (s : Tia) (seen : List Pass) : Operation → List Pass
  | .access request => if request.clears then [] else seen ++ s.passesOf request
  | .reset _ => []
  | _ => seen

/-- The columns that the beam has passed since the latches were last cleared, after a run. -/
def rememberAll (s : Tia) (seen : List Pass) : List Operation → List Pass
  | [] => seen
  | operation :: rest => (s.operate operation).rememberAll (s.remember seen operation) rest

/-- A latch is set if both its figures covered a column that the beam has passed. -/
def Remembers (s : Tia) (seen : List Pass) : Prop :=
  ∀ latch ∈ Latch.all, s.latched latch = seen.any (·.joins latch.first latch.second)

theorem perform_remembers {s : Tia} (hle : s.beam.lineLeft ≤ lineClocks) (h : s.objects.Current)
    {seen : List Pass} (hseen : s.Remembers seen) (request : Access) :
    (s.perform request).2.Remembers (s.remember seen (.access request)) := by
  obtain ⟨clocks, hclocks, hpasses⟩ := perform_traces hle request
  intro latch hlatch
  rw [latched, hclocks.collisions, remember]
  by_cases hcleared : request.clears
  · rw [if_pos hcleared, if_pos hcleared, UInt16.zero_and]
    rfl
  · rw [if_neg hcleared, if_neg hcleared, hpasses, List.any_append, ← hseen latch hlatch]
    exact ticks_latched h hlatch clocks

theorem operate_remembers {s : Tia} (hle : s.beam.lineLeft ≤ lineClocks) (h : s.objects.Current)
    {seen : List Pass} (hseen : s.Remembers seen) (operation : Operation) :
    (s.operate operation).Remembers (s.remember seen operation) := by
  cases operation with
  | access request => exact perform_remembers hle h hseen request
  | beginFrame carry => exact hseen
  | finishFrame cycles =>
    simp only [operate, finishFrame]
    split <;> exact hseen
  | rebase cycles => exact hseen
  | setSettings settings => exact hseen
  | reset cycles =>
    intro latch _
    rw [latched, operate, reset, powerOn, UInt16.zero_and]
    rfl

theorem run_remembers {s : Tia} (hle : s.beam.lineLeft ≤ lineClocks) (h : s.objects.Current)
    {seen : List Pass} (hseen : s.Remembers seen) (operations : List Operation) :
    (s.run operations).Remembers (s.rememberAll seen operations) := by
  induction operations generalizing s seen with
  | nil => exact hseen
  | cons operation rest ih =>
    exact ih (operate_lineLeft_le hle operation) (operate_current hle h operation)
      (operate_remembers hle h hseen operation)

/-! ## Reading the latches -/

/-- What a bit of a collision register says. -/
def reports (s : Tia) (register : UInt8) (bit : Nat) : Bool :=
  Latch.all.any fun latch ↦ latch.register == register && latch.bit == bit && s.latched latch

/-- Numbers of the collision registers. -/
theorem collisionRegister_cases {register : UInt8} (h : register &&& 0x08 = 0) :
    register &&& 0x0F = register &&& 0x07 ∧ register &&& 0x07 ∈ [0, 1, 2, 3, 4, 5, 6, 7] :=
  forall_byte (p := fun register ↦ register &&& 0x08 = 0 →
    register &&& 0x0F = register &&& 0x07 ∧ register &&& 0x07 ∈ [0, 1, 2, 3, 4, 5, 6, 7])
    (by decide +kernel) register h

theorem level_eq (s : Tia) (cycles : Nat) (ports : Ports) {register : UInt8}
    (h : register ∈ [0, 1, 2, 3, 4, 5, 6, 7]) :
    s.level cycles ports register =
      highBit (s.reports register 7) ||| if s.reports register 6 then 0x40 else 0 := by
  simp only [List.mem_cons, List.not_mem_nil, or_false] at h
  have hself : register &&& 7 = register := by
    rcases h with rfl | rfl | rfl | rfl | rfl | rfl | rfl | rfl <;> rfl
  have hlevel : s.level cycles ports register = s.collisionLevel register := by
    rcases h with rfl | rfl | rfl | rfl | rfl | rfl | rfl | rfl <;> rfl
  have hreported : (s.collisions &&& (Collision.reported register).1 != 0) = s.reports register 7 ∧
      (s.collisions &&& (Collision.reported register).2 != 0) = s.reports register 6 := by
    simp only [Collision.reported, hself]
    rcases h with rfl | rfl | rfl | rfl | rfl | rfl | rfl | rfl <;>
      simp [reports, Latch.all, latched]
  rw [hlevel, ← hreported.1, ← hreported.2]
  rfl

theorem driven_bits (high low : Bool) (rest : UInt8) :
    let value := (highBit high ||| if low then 0x40 else 0) ||| (rest &&& 0x3F)
    value.toNat.testBit 7 = high ∧ value.toNat.testBit 6 = low ∧ value &&& 0x3F = rest &&& 0x3F :=
  forall_byte (p := fun rest ↦ ∀ high low : Bool,
    let value := (highBit high ||| if low then 0x40 else 0) ||| (rest &&& 0x3F)
    value.toNat.testBit 7 = high ∧ value.toNat.testBit 6 = low ∧ value &&& 0x3F = rest &&& 0x3F)
    (by decide +kernel) rest high low

theorem read_bits (s : Tia) (cycles : Nat) (dataBus : UInt8) (ports : Ports) {address : UInt16}
    (h : address &&& 0x08 = 0) :
    let value := (s.read cycles dataBus ports address).1
    let caught := s.catchUp (clockOf cycles)
    value &&& 0x3F = dataBus &&& 0x3F ∧
      ∀ bit ∈ [6, 7], value.toNat.testBit bit = caught.reports (address.toUInt8 &&& 0x07) bit := by
  intro value caught
  have hregister : address.toUInt8 &&& 0x08 = 0 := by
    have hbyte := congrArg UInt16.toUInt8 h
    rwa [UInt16.toUInt8_and] at hbyte
  obtain ⟨hsame, hmem⟩ := collisionRegister_cases hregister
  have hvalue : value = (highBit (caught.reports (address.toUInt8 &&& 0x07) 7) |||
      if caught.reports (address.toUInt8 &&& 0x07) 6 then 0x40 else 0) ||| (dataBus &&& 0x3F) := by
    have hdecoded : (address &&& 0x0F).toUInt8 = address.toUInt8 &&& 0x07 := by
      rw [UInt16.toUInt8_and, ← hsame]
      rfl
    rw [← level_eq caught cycles ports hmem, ← hdecoded]
    rfl
  obtain ⟨hhigh, hlow, hrest⟩ := driven_bits (caught.reports (address.toUInt8 &&& 0x07) 7)
    (caught.reports (address.toUInt8 &&& 0x07) 6) dataBus
  rw [hvalue]
  refine ⟨hrest, ?_⟩
  intro bit hbit
  simp only [List.mem_cons, List.not_mem_nil, or_false] at hbit
  rcases hbit with rfl | rfl
  · exact hlow
  · exact hhigh

/-- Latches, reads and pixels tell what covers the columns, `seen` being those that the beam has passed since the
latches were last cleared. -/
structure ShowsCoverage (s : Tia) (seen : List Pass) : Prop where
  /-- Every two figures have one latch. -/
  pairs : ∀ first second : Figure, first ≠ second → Latch.all.countP (·.watches first second) = 1
  /-- A latch is set if and only if both its figures covered a column, vertical blank being off. -/
  latch : ∀ latch ∈ Latch.all,
    s.latched latch ↔ ∃ pass ∈ seen, pass.joins latch.first latch.second
  /-- A read lets the beam catch up to its own cycle. -/
  caughtUp : ∀ cycles dataBus ports address,
    s.passesOf (.read cycles dataBus ports address) = s.passes (s.beam.due (clockOf cycles))
  /-- The two upper bits of a collision register report its latches as they are then. -/
  driven : ∀ cycles dataBus ports (address : UInt16), address &&& 0x08 = 0 → ∀ bit ∈ [6, 7],
    ((s.read cycles dataBus ports address).1.toNat.testBit bit ↔
      ∃ latch ∈ Latch.all, latch.register = address.toUInt8 &&& 0x07 ∧ latch.bit = bit ∧
        ∃ pass ∈ seen ++ s.passesOf (.read cycles dataBus ports address),
          pass.joins latch.first latch.second)
  /-- The six lower bits are those of the data bus. -/
  floating : ∀ cycles dataBus ports (address : UInt16), address &&& 0x08 = 0 →
    (s.read cycles dataBus ports address).1 &&& 0x3F = dataBus &&& 0x3F
  /-- An access draws the pixels of the columns that the beam passes in it. -/
  pixels : ∀ request, (s.perform request).2.video = (s.passesOf request).foldl Pass.paint s.video

theorem Remembers.showsCoverage {s : Tia} {seen : List Pass} (hle : s.beam.lineLeft ≤ lineClocks)
    (h : s.objects.Current) (hseen : s.Remembers seen) : s.ShowsCoverage seen where
  pairs _ _ := Latch.count_watching
  latch latch hlatch := by rw [hseen latch hlatch, List.any_eq_true]
  caughtUp cycles dataBus ports address := by
    have hdrawn : (s.catchUp (clockOf cycles)).beam.drawnTo - s.beam.drawnTo =
        s.beam.due (clockOf cycles) := by
      rw [catchUp_eq_ticks hle, ticks_drawnTo]
      omega
    simp only [passesOf, perform, read, hdrawn, Int.toNat_natCast]
  driven cycles dataBus ports address haddress bit hbit := by
    have hread : (s.catchUp (clockOf cycles)).Remembers
        (seen ++ s.passesOf (.read cycles dataBus ports address)) :=
      perform_remembers hle h hseen (.read cycles dataBus ports address)
    rw [(s.read_bits cycles dataBus ports haddress).2 bit hbit, reports, List.any_eq_true]
    refine exists_congr fun latch ↦ and_congr_right fun hlatch ↦ ?_
    rw [hread latch hlatch, Bool.and_eq_true, Bool.and_eq_true, beq_iff_eq, beq_iff_eq,
      List.any_eq_true, and_assoc]
  floating cycles dataBus ports address haddress := (s.read_bits cycles dataBus ports haddress).1
  pixels := perform_video hle h

/-- Whatever is done to a chip after power-on, its latches, its answers and its pixels tell what has covered the
columns of the picture. -/
theorem run_showsCoverage (start : PowerUp) (operations : List Operation) :
    (start.chip.run operations).ShowsCoverage (start.chip.rememberAll [] operations) := by
  have hclear : start.chip.collisions = 0 := by
    cases start <;> rfl
  have hstart : start.chip.Remembers [] := by
    intro latch _
    rw [latched, hclear, UInt16.zero_and]
    rfl
  have hcurrent : start.chip.objects.Current := run_current start []
  have hseen := run_remembers (powerUp_lineLeft_le start) hcurrent hstart operations
  exact hseen.showsCoverage (run_lineLeft_le start operations) (run_current start operations)

end Vcs.Tia
