import Vcs.Proofs.Tia.BeamPosition
import Vcs.Proofs.Tia.MaskGeometry
import Vcs.Proofs.Tia.Operation
import Vcs.Proofs.Tia.Stored

/-!
# Lost Colour

A television of the European standard loses the colours of a frame that follows one with an odd count of
scanlines.  The chip marks such a frame in the lowest bit of the four colour registers, which is not the
program's to set: it is put right when a frame begins and whenever a colour is written.

A run is watched for the frame it is in and the frame completed before it.  Main statement: from the beginning
of a frame until it is completed all four registers are marked alike, as the frame before says, and so is
whatever is drawn that is not black.  Outside of frames the mark means nothing, but a chip that cannot lose its
colours never sets it.
-/

namespace Vcs.Tia

/-- The lowest bit of a colour says whether colours are lost. -/
def Marked (lost : Bool) (color : UInt8) : Prop :=
  color &&& 0x01 = if lost then 0x01 else 0

instance (lost : Bool) (color : UInt8) : Decidable (Marked lost color) :=
  inferInstanceAs (Decidable (_ = _))

/-- A colour as the chip stores it. -/
def tinted (lost : Bool) (color : UInt8) : UInt8 :=
  (color &&& 0xFE) ||| if lost then 0x01 else 0

theorem marked_zero : Marked false 0 := rfl

theorem marked_set (color : UInt8) : Marked true (color ||| 0x01) :=
  forall_byte (p := fun color ↦ Marked true (color ||| 0x01)) (by decide +kernel) color

theorem marked_cleared (color : UInt8) : Marked false (color &&& 0xFE) :=
  forall_byte (p := fun color ↦ Marked false (color &&& 0xFE)) (by decide +kernel) color

theorem marked_tinted (lost : Bool) (color : UInt8) : Marked lost (tinted lost color) := by
  cases lost with
  | false =>
    rw [tinted, if_neg Bool.false_ne_true, UInt8.or_zero]
    exact marked_cleared color
  | true => exact marked_set _

theorem Marked.unique {lost other : Bool} {color : UInt8} (h : Marked lost color)
    (hother : Marked other color) : lost = other := by
  have hbit : (if lost then (0x01 : UInt8) else 0) = if other then 0x01 else 0 := h.symm.trans hother
  revert hbit
  cases lost <;> cases other <;> decide

/-- A colour that is marked as it should be stays as it is when it is marked again. -/
theorem tint_eq_self_iff {odd : Bool} {color : UInt8} :
    (if odd then color ||| 0x01 else color &&& 0xFE) = color ↔ Marked odd color :=
  forall_byte (p := fun color ↦ ∀ odd : Bool,
    (if odd then color ||| 0x01 else color &&& 0xFE) = color ↔ Marked odd color)
    (by decide +kernel) color odd

/-- Whether colours written now are lost. -/
def losesColor (s : Tia) : Bool :=
  s.settings.colorLoss && s.frame.lastLength % 2 != 0

def color (s : Tia) (register : Register) : UInt8 :=
  s.objects.registers.get register

theorem notMem_motionRegisters {register : Register} (h : register ∈ colorRegisters) :
    register ∉ motionRegisters := by
  revert register
  decide

theorem enforceCeiling_losesColor (s : Tia) (clock : Int) :
    (s.enforceCeiling clock).1.losesColor = s.losesColor := by
  unfold enforceCeiling
  dsimp only
  split <;> rfl

theorem catchUp_losesColor (s : Tia) (clock : Int) : (s.catchUp clock).losesColor = s.losesColor := by
  rw [losesColor, losesColor, (s.catchUp_keeps clock).1, catchUp_frame]

theorem actOn_color (s : Tia) {register : Register} (h : register ∈ colorRegisters)
    (previous value : UInt8) (clock : Int) (cycles : Nat) (afterRead : Bool) (response : Response) :
    (s.actOn register previous value clock cycles afterRead response).1.color register =
      tinted s.losesColor value := by
  simp only [colorRegisters, List.mem_cons, List.not_mem_nil, or_false] at h
  rcases h with rfl | rfl | rfl | rfl <;> exact RegisterFile.get_set_self _ _ _

/-- A colour is stored with the lowest bit set or cleared. -/
theorem write_color (s : Tia) {address : UInt16} {register : Register} (hcolor : register ∈ colorRegisters)
    (hnames : names address register) (cycles : Nat) (afterRead : Bool) (value : UInt8) :
    (s.write cycles afterRead address value).1.color register = tinted s.losesColor value := by
  have hregister : Register.ofAddress? address.toUInt8 = some register := of_decide_eq_true hnames
  simp only [write, hregister, actOn_color _ hcolor]
  have hmap (t : Tia) (change : Objects → Objects) : (t.mapObjects change).losesColor = t.losesColor := rfl
  rw [hmap, enforceCeiling_losesColor, catchUp_losesColor]

/-- An access leaves a colour as it is or stores a new one. -/
theorem perform_color (s : Tia) (request : Access) {register : Register} (h : register ∈ colorRegisters) :
    (s.perform request).2.color register = s.color register ∨
      ∃ value, (s.perform request).2.color register = tinted s.losesColor value := by
  cases request with
  | read cycles dataBus ports address =>
    exact .inl (congrArg (·.get register) (s.catchUp_registers _))
  | write cycles afterRead address value =>
    rcases hnames : names address register with _ | _
    · exact .inl (s.write_get_of_ne hnames (notMem_motionRegisters h) cycles afterRead value)
    · exact .inr ⟨value, s.write_color h hnames cycles afterRead value⟩

/-- The beginning of a frame sets the lowest bit anew, if colours can be lost. -/
theorem beginFrame_color (s : Tia) (carry : Int) {register : Register} (h : register ∈ colorRegisters) :
    (s.beginFrame carry).color register =
      if s.settings.colorLoss then
        if s.frame.lastLength % 2 != 0 then s.color register ||| 0x01 else s.color register &&& 0xFE
      else s.color register := by
  by_cases hloss : s.settings.colorLoss
  · simp only [colorRegisters, List.mem_cons, List.not_mem_nil, or_false] at h
    rcases h with rfl | rfl | rfl | rfl <;>
      simp only [beginFrame, hloss, if_true, color, colorRegisters, List.foldl_cons, List.foldl_nil,
        RegisterFile.get_set_self, ne_eq, reduceCtorEq, not_false_eq_true, RegisterFile.get_set_of_ne]
  · simp only [beginFrame, hloss, color]
    rfl

theorem actOn_lastLength (s : Tia) (register : Register) (previous value : UInt8) (clock : Int)
    (cycles : Nat) (afterRead : Bool) (response : Response) :
    (s.actOn register previous value clock cycles afterRead response).1.frame.lastLength =
      s.frame.lastLength := by
  by_cases hsync : register = .vsync
  · subst hsync
    simp only [actOn, writeSync]
    split_ifs <;> rfl
  · rw [actOn_frame s hsync]

theorem enforceCeiling_lastLength (s : Tia) (clock : Int) :
    (s.enforceCeiling clock).1.frame.lastLength = s.frame.lastLength := by
  unfold enforceCeiling
  dsimp only
  split <;> rfl

/-- Only the completion of a frame counts its scanlines. -/
theorem perform_lastLength (s : Tia) (request : Access) :
    (s.perform request).2.frame.lastLength = s.frame.lastLength := by
  cases request with
  | read cycles dataBus ports address => exact congrArg FrameState.lastLength (s.catchUp_frame _)
  | write cycles afterRead address value =>
    rcases hregister : Register.ofAddress? address.toUInt8 with _ | register
    · simp only [perform, write, hregister, enforceCeiling_lastLength, catchUp_frame]
    · simp only [perform, write, hregister, actOn_lastLength, mapObjects, enforceCeiling_lastLength,
        catchUp_frame]

theorem perform_settings (s : Tia) (request : Access) :
    (s.perform request).2.settings = s.settings := by
  cases request with
  | read cycles dataBus ports address => exact (s.catchUp_keeps _).1
  | write cycles afterRead address value => exact (s.write_ends cycles afterRead address value).settings

/-- Colours are marked, and so is what is drawn of the frame unless it is black; the rest of the buffer is as
the frame found it. -/
structure Painted (lost : Bool) (canvas : ByteArray) (s : Tia) : Prop where
  colors : ∀ register ∈ colorRegisters, Marked lost (s.color register)
  drawn : ∀ index color, index < s.beam.pointer → s.video.current[index]? = some color →
    color = 0 ∨ Marked lost color
  undrawn : ∀ index, s.beam.pointer ≤ index → s.video.current[index]? = canvas[index]?

theorem colorRegister_mem (source : ColorSource) : Objects.colorRegister source ∈ colorRegisters := by
  cases source <;> decide

theorem tick_color (s : Tia) (register : Register) : s.tick.color register = s.color register := by
  rw [color, tick_objects]
  split
  · rw [endLine_registers]
    rfl
  · rfl

theorem turnLine_color (s : Tia) (register : Register) : s.turnLine.color register = s.color register := by
  unfold turnLine color
  split
  · simp only [endLine_registers]
  · rfl

/-- A column is black or in one of the four colours. -/
theorem shade_eq (s : Tia) (column : Nat) :
    s.shade column = 0 ∨ ∃ register ∈ colorRegisters, s.shade column = s.color register := by
  unfold shade
  split
  · exact .inl rfl
  · exact .inr ⟨_, colorRegister_mem _, rfl⟩

namespace Painted

variable {lost : Bool} {canvas : ByteArray} {s : Tia}

theorem shade (h : s.Painted lost canvas) (column : Nat) :
    s.turnLine.shade column = 0 ∨ Marked lost (s.turnLine.shade column) := by
  refine (s.turnLine.shade_eq column).imp_right ?_
  rintro ⟨register, hregister, hshade⟩
  rw [hshade, turnLine_color]
  exact h.colors register hregister

theorem tick (h : s.Painted lost canvas) : s.tick.Painted lost canvas where
  colors register hregister := by
    rw [tick_color]
    exact h.colors register hregister
  drawn index color hindex hcolor := by
    rcases Nat.lt_or_ge index s.beam.pointer with hbefore | hnow
    · rw [tick_keeps (.inl hbefore)] at hcolor
      exact h.drawn index color hbefore hcolor
    · rcases s.tick_picture with ⟨-, hpointer⟩ | ⟨column, hvideo, hpointer⟩
      · omega
      · obtain rfl : index = s.beam.pointer := by omega
        rw [hvideo, Store.getElem?_put_self, Option.map_eq_some_iff] at hcolor
        obtain ⟨-, -, rfl⟩ := hcolor
        exact h.shade column
  undrawn index hindex := by
    rw [tick_keeps (.inr hindex)]
    exact h.undrawn index (s.tick_pointer_le.trans hindex)

theorem catchUp (h : s.Painted lost canvas) (hle : s.beam.lineLeft ≤ lineClocks) (clock : Int) :
    (s.catchUp clock).Painted lost canvas :=
  catchUp_induction hle clock h fun _ ↦ Painted.tick

/-- An access draws, and stores colours with the mark of the frame. -/
theorem perform (h : s.Painted s.losesColor canvas) (hle : s.beam.lineLeft ≤ lineClocks)
    (request : Access) : (s.perform request).2.Painted s.losesColor canvas := by
  obtain ⟨clock, hscreen⟩ := perform_screen hle request
  have hcaught := h.catchUp hle clock
  have hvideo : (s.perform request).2.video = (s.catchUp clock).video := congrArg Screen.video hscreen
  have hbeam : (s.perform request).2.beam = (s.catchUp clock).beam := congrArg Screen.beam hscreen
  constructor
  · intro register hregister
    rcases s.perform_color request hregister with hkept | ⟨value, hstored⟩
    · exact hkept ▸ h.colors register hregister
    · exact hstored ▸ marked_tinted s.losesColor value
  · rw [hvideo, hbeam]
    exact hcaught.drawn
  · rw [hvideo, hbeam]
    exact hcaught.undrawn

end Painted

theorem perform_previous {s : Tia} (hle : s.beam.lineLeft ≤ lineClocks) (request : Access) :
    (s.perform request).2.video.previous = s.video.previous := by
  obtain ⟨clock, hscreen⟩ := perform_screen hle request
  have hcaught : (s.catchUp clock).video.previous = s.video.previous := by
    rw [catchUp_eq_ticks hle, ticks_previous]
  exact (congrArg (·.video.previous) hscreen).trans hcaught

/-- No pixel of a buffer is marked. -/
def Unmarked (pixels : ByteArray) : Prop :=
  ∀ (index : Nat) (color : UInt8), pixels[index]? = some color → Marked false color

theorem unmarked_blankFrame : Unmarked blankFrame := by
  intro index color hcolor
  by_cases hindex : index < framePixels
  · rw [getElem?_blankFrame hindex, Option.some.injEq] at hcolor
    exact hcolor ▸ marked_zero
  · have hsize := size_blankFrame
    rw [getElem?_neg blankFrame index (by omega)] at hcolor
    exact absurd hcolor.symm (Option.some_ne_none color)

theorem Painted.unmarked {canvas : ByteArray} {s : Tia} (h : s.Painted false canvas)
    (hcanvas : Unmarked canvas) : Unmarked s.video.current := by
  intro index color hcolor
  rcases Nat.lt_or_ge index s.beam.pointer with hdrawn | hundrawn
  · rcases h.drawn index color hdrawn hcolor with rfl | hmarked
    · exact marked_zero
    · exact hmarked
  · exact hcanvas index color (h.undrawn index hundrawn ▸ hcolor)

theorem powerUp_painted (powerUp : PowerUp) : powerUp.chip.Painted false blankFrame := by
  have hcolor (register : Register) : powerUp.chip.color register = 0 := by
    cases powerUp <;> simp [PowerUp.chip, Tia.new, reset, powerOn, color, RegisterFile.get]
  have hpointer : powerUp.chip.beam.pointer = 0 := by
    cases powerUp <;> rfl
  have hblank : powerUp.chip.video.current = blankFrame := by
    cases powerUp <;> rfl
  refine ⟨fun register _ ↦ ?_, fun index color hindex ↦ ?_, fun index _ ↦ ?_⟩
  · rw [hcolor]
    exact marked_zero
  · omega
  · rw [hblank]

/-! ## Watching a run -/

/-- The settings stay as they are. -/
def Operation.keepsSettings : Operation → Bool
  | setSettings _ => false
  | _ => true

theorem operate_settings (s : Tia) {operation : Operation} (h : operation.keepsSettings) :
    (s.operate operation).settings = s.settings := by
  cases operation with
  | access request => exact s.perform_settings request
  | finishFrame cycles =>
    simp only [operate, finishFrame]
    split <;> rfl
  | setSettings settings => exact absurd h Bool.false_ne_true
  | beginFrame | rebase | reset => rfl

theorem run_settings (s : Tia) {operations : List Operation}
    (h : ∀ operation ∈ operations, operation.keepsSettings) : (s.run operations).settings = s.settings := by
  induction operations generalizing s with
  | nil => rfl
  | cons operation rest ih =>
    exact (ih (s.operate operation) fun later hmem ↦ h later (List.mem_cons_of_mem _ hmem)).trans
      (s.operate_settings (h operation List.mem_cons_self))

/-- A chip on a run, with what has been seen of its frames. -/
structure FrameWatch where
  chip : Tia
  /-- A frame has begun that has not been completed. -/
  inFrame : Bool := false
  /-- Scanlines of the last completed frame. -/
  previous : Int := 0
  /-- The buffer to draw into, as the frame found it. -/
  canvas : ByteArray := blankFrame

namespace FrameWatch

def observe (w : FrameWatch) (operation : Operation) : FrameWatch :=
  let chip := w.chip.operate operation
  match operation with
  | .beginFrame _ => { w with chip := chip, inFrame := true, canvas := chip.video.current }
  | .finishFrame cycles =>
    if w.chip.frame.drawing then { w with chip := chip }
    else { w with chip := chip, inFrame := false, previous := w.chip.scanlines cycles }
  | .reset _ => { chip := chip }
  | _ => { w with chip := chip }

def watch (w : FrameWatch) (operations : List Operation) : FrameWatch :=
  operations.foldl observe w

/-- The watch of a chip in its power-on state. -/
def start (powerUp : PowerUp) : FrameWatch where
  chip := powerUp.chip

/-- Whether the frame loses its colours. -/
def lost (w : FrameWatch) : Bool :=
  w.chip.settings.colorLoss && w.previous % 2 != 0

theorem watch_chip (w : FrameWatch) (operations : List Operation) :
    (w.watch operations).chip = w.chip.run operations := by
  have hobserve (w : FrameWatch) (operation : Operation) :
      (w.observe operation).chip = w.chip.operate operation := by
    cases operation with
    | finishFrame cycles =>
      simp only [observe]
      split <;> rfl
    | _ => rfl
  induction operations generalizing w with
  | nil => rfl
  | cons operation rest ih =>
    have hrest := ih (w.observe operation)
    rw [hobserve] at hrest
    exact hrest

/-- What is seen agrees with the chip.  Without colour loss the colours are marked outside of frames too. -/
structure Sound (w : FrameWatch) : Prop where
  lineLeft_le : w.chip.beam.lineLeft ≤ lineClocks
  lastLength_eq : w.chip.frame.lastLength = w.previous
  painted : w.inFrame ∨ w.chip.settings.colorLoss = false → w.chip.Painted w.lost w.canvas
  unmarked : w.chip.settings.colorLoss = false → Unmarked w.canvas ∧ Unmarked w.chip.video.previous

theorem start_sound (powerUp : PowerUp) : (start powerUp).Sound := by
  have hlost : (start powerUp).lost = false := by
    simp [lost, start]
  have hpainted : (start powerUp).chip.Painted (start powerUp).lost blankFrame :=
    hlost ▸ powerUp_painted powerUp
  have hunmarked : Unmarked (start powerUp).chip.video.previous := by
    cases powerUp <;> exact unmarked_blankFrame
  have hlength : (start powerUp).chip.frame.lastLength = 0 := by
    cases powerUp <;> rfl
  exact ⟨powerUp_lineLeft_le powerUp, hlength, fun _ ↦ hpainted,
    fun _ ↦ ⟨unmarked_blankFrame, hunmarked⟩⟩

namespace Sound

variable {w : FrameWatch} (h : w.Sound)

include h

theorem lost_eq : w.lost = w.chip.losesColor := by
  rw [lost, losesColor, h.lastLength_eq]

theorem access (request : Access) : (w.observe (.access request)).Sound where
  lineLeft_le := perform_lineLeft_le h.lineLeft_le request
  lastLength_eq := (w.chip.perform_lastLength request).trans h.lastLength_eq
  painted hframe := by
    have hsettings := w.chip.perform_settings request
    have hlost : (w.observe (.access request)).lost = w.chip.losesColor := by
      rw [← h.lost_eq]
      simp only [lost, observe, operate, hsettings]
    simp only [observe, operate, hsettings] at hframe
    rw [hlost]
    exact (h.lost_eq ▸ h.painted hframe).perform h.lineLeft_le request
  unmarked hkeeps := by
    have hsettings := w.chip.perform_settings request
    simp only [observe, operate, hsettings] at hkeeps ⊢
    rw [perform_previous h.lineLeft_le]
    exact h.unmarked hkeeps

theorem beginFrame_marked (carry : Int) {register : Register} (hregister : register ∈ colorRegisters) :
    Marked w.chip.losesColor ((w.chip.beginFrame carry).color register) := by
  rw [beginFrame_color w.chip carry hregister]
  rcases hloss : w.chip.settings.colorLoss with _ | _
  · have hmarked := (h.painted (.inr hloss)).colors register hregister
    rwa [h.lost_eq] at hmarked
  · rw [losesColor, hloss, Bool.true_and, if_pos rfl]
    split
    · next hodd =>
      rw [hodd]
      exact marked_set _
    · next heven =>
      rw [Bool.eq_false_iff.mpr heven]
      exact marked_cleared _

theorem beginFrame (carry : Int) : (w.observe (.beginFrame carry)).Sound where
  lineLeft_le := le_refl _
  lastLength_eq := h.lastLength_eq
  painted _ := by
    have hlost : (w.observe (.beginFrame carry)).lost = w.chip.losesColor := h.lost_eq
    rw [hlost]
    exact ⟨fun register ↦ h.beginFrame_marked carry,
      fun index color hindex ↦ absurd hindex (Nat.not_lt_zero _), fun index _ ↦ rfl⟩
  unmarked hloss := by
    have hlost : w.lost = false := by
      rw [lost, show w.chip.settings.colorLoss = false from hloss, Bool.false_and]
    have hpainted := h.painted (.inr hloss)
    rw [hlost] at hpainted
    obtain ⟨hcanvas, hprevious⟩ := h.unmarked hloss
    -- The buffers change places.
    exact ⟨hprevious, hpainted.unmarked hcanvas⟩

theorem finishFrame (cycles : Nat) : (w.observe (.finishFrame cycles)).Sound := by
  rcases hdrawing : w.chip.frame.drawing with _ | _
  · simp only [observe, operate, Tia.finishFrame, hdrawing, Bool.false_eq_true, if_false]
    refine ⟨h.lineLeft_le, rfl, ?_, h.unmarked⟩
    rintro (hframe | hloss)
    · exact absurd hframe Bool.false_ne_true
    · have hpainted := h.painted (.inr hloss)
      simp only [lost, show w.chip.settings.colorLoss = false from hloss, Bool.false_and] at hpainted ⊢
      exact ⟨hpainted.colors, hpainted.drawn, hpainted.undrawn⟩
  · simp only [observe, operate, Tia.finishFrame, hdrawing, if_true]
    exact h

theorem rebase (cycles : Nat) : (w.observe (.rebase cycles)).Sound where
  lineLeft_le := h.lineLeft_le
  lastLength_eq := h.lastLength_eq
  painted hframe := ⟨(h.painted hframe).colors, (h.painted hframe).drawn, (h.painted hframe).undrawn⟩
  unmarked := h.unmarked

theorem observe {operation : Operation} (hkeeps : operation.keepsSettings) :
    (w.observe operation).Sound := by
  cases operation with
  | access request => exact h.access request
  | beginFrame carry => exact h.beginFrame carry
  | finishFrame cycles => exact h.finishFrame cycles
  | rebase cycles => exact h.rebase cycles
  | setSettings settings => exact absurd hkeeps Bool.false_ne_true
  | reset cycles => exact start_sound (.reset w.chip cycles)

theorem watch {operations : List Operation} (hkeeps : ∀ operation ∈ operations, operation.keepsSettings) :
    (w.watch operations).Sound := by
  induction operations generalizing w with
  | nil => exact h
  | cons operation rest ih =>
    exact ih (h.observe (hkeeps operation List.mem_cons_self))
      fun later hmem ↦ hkeeps later (List.mem_cons_of_mem _ hmem)

end Sound

/-- While the settings stay as they are all four colours are marked alike from the beginning of a frame until it
is completed, and so are the pixels drawn in it that are not black.  Without colour loss no pixel is marked,
in a frame or outside of one. -/
theorem marked_in_frame (powerUp : PowerUp) {operations : List Operation}
    (hkeeps : ∀ operation ∈ operations, operation.keepsSettings) :
    let w := (start powerUp).watch operations
    let lost := powerUp.chip.settings.colorLoss && w.previous % 2 != 0
    (w.inFrame →
        (∀ register ∈ colorRegisters, Marked lost (w.chip.color register)) ∧
          (∀ index color, index < w.chip.beam.pointer → w.chip.video.current[index]? = some color →
            color = 0 ∨ Marked lost color) ∧
          ∀ index, w.chip.beam.pointer ≤ index → w.chip.video.current[index]? = w.canvas[index]?) ∧
      (powerUp.chip.settings.colorLoss = false →
        Unmarked w.chip.video.current ∧ Unmarked w.chip.video.previous) := by
  intro w lost
  have hsound : w.Sound := (start_sound powerUp).watch hkeeps
  have hsettings : w.chip.settings = powerUp.chip.settings := by
    rw [watch_chip]
    exact run_settings powerUp.chip hkeeps
  have hlost : w.lost = lost := by
    simp only [FrameWatch.lost, hsettings, lost]
  have hpainted := hsound.painted
  rw [hlost] at hpainted
  constructor
  · intro hframe
    exact ⟨(hpainted (.inl hframe)).colors, (hpainted (.inl hframe)).drawn,
      (hpainted (.inl hframe)).undrawn⟩
  · intro hloss
    have hnone : lost = false := by
      simp only [lost, hloss, Bool.false_and]
    rw [hsettings, hnone] at hpainted
    obtain ⟨hcanvas, hprevious⟩ := hsound.unmarked (hsettings ▸ hloss)
    exact ⟨(hpainted (.inr hloss)).unmarked hcanvas, hprevious⟩

/-- A frame of one scanline, and a colour written in the next one. -/
theorem marked_in_frame_of_odd :
    let powerUp := PowerUp.new { colorLoss := true }
    let operations : List Operation :=
      [.finishFrame 76, .beginFrame 0, .access (.write 1 false 0x09 0x44)]
    let w := (start powerUp).watch operations
    (∀ operation ∈ operations, operation.keepsSettings) ∧ w.inFrame ∧ w.previous = 1 ∧
      ∀ register ∈ colorRegisters, Marked true (w.chip.color register) := by
  intro powerUp operations w
  have hkeeps : ∀ operation ∈ operations, operation.keepsSettings := by
    simp [operations, Operation.keepsSettings]
  have hframe : w.inFrame := by decide +kernel
  have hprevious : w.previous = 1 := by decide +kernel
  obtain ⟨hmarked, -⟩ := marked_in_frame powerUp hkeeps
  refine ⟨hkeeps, hframe, hprevious, ?_⟩
  have hcolors := (hmarked hframe).1
  rwa [show (start powerUp).watch operations = w from rfl, hprevious] at hcolors

end FrameWatch

end Vcs.Tia
