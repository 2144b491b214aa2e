import Vcs.Console.Screenshot
import Vcs.Proofs.Console.Reachable
import Vcs.Proofs.Tia.BeamPosition

/-!
# The Size of the Picture

First line and height of the picture are kept twice, by the machine and by the video chip, and the chip keeps no
height that its buffers have no room for.  Main statement: whatever has been done to a machine, the chip has the
machine's first line, ceiling, colour loss and motion blanks, and the lower of the machine's height and 300; the
picture has that many lines.  So the two copies agree, and the picture has the size that a screenshot announces,
exactly if no taller height is configured.  A height that is measured is never taller.
-/

namespace Vcs

namespace Tia

/-- Both buffers have their full size, and the line that is being drawn is not longer than a line. -/
structure Framed (s : Tia) : Prop where
  lineLeft_le : s.beam.lineLeft ≤ lineClocks
  current : s.video.current.size = framePixels
  previous : s.video.previous.size = framePixels

namespace Framed

variable {s : Tia}

theorem tick (h : s.Framed) : s.tick.Framed := by
  have hle := tick_lineLeft_le h.lineLeft_le
  rcases s.tick_picture with ⟨hvideo, -⟩ | ⟨column, hvideo, -⟩
  · exact ⟨hle, hvideo ▸ h.current, hvideo ▸ h.previous⟩
  · refine ⟨hle, ?_, ?_⟩
    · rw [hvideo]
      exact (Store.size_put _ _ _).trans h.current
    · rw [hvideo]
      exact h.previous

theorem catchUp (h : s.Framed) (clock : Int) : (s.catchUp clock).Framed :=
  catchUp_induction h.lineLeft_le clock h fun _ ↦ tick

theorem of_screen {t : Tia} (h : s.Framed) (hscreen : t.screen = s.screen) : t.Framed := by
  obtain ⟨-, hvideo, hbeam⟩ := Screen.mk.inj hscreen
  exact ⟨hbeam ▸ h.lineLeft_le, hvideo ▸ h.current, hvideo ▸ h.previous⟩

theorem perform (h : s.Framed) (request : Access) : (s.perform request).2.Framed := by
  obtain ⟨clock, hscreen⟩ := perform_screen h.lineLeft_le request
  exact (h.catchUp clock).of_screen hscreen

theorem beginFrame (h : s.Framed) (carry : Int) : (s.beginFrame carry).Framed :=
  ⟨Nat.le_refl _, h.previous, h.current⟩

theorem finishFrame (h : s.Framed) (cycles : Nat) : (s.finishFrame cycles).2.Framed := by
  refine h.of_screen ?_
  unfold Tia.finishFrame
  split <;> rfl

theorem rebase (h : s.Framed) (cycles : Nat) : (s.rebase cycles).Framed :=
  ⟨h.lineLeft_le, h.current, h.previous⟩

theorem powerOn (s : Tia) (cycles : Nat) : (s.powerOn cycles).Framed :=
  ⟨Nat.le_refl _, size_blankFrame, size_blankFrame⟩

end Framed

end Tia

theorem Board.keeps_framed : Bus.Keeps fun b : Board ↦ b.tia.Framed where
  read {b} address h := by
    obtain ⟨htia | htia, -⟩ := b.read_keeps address
    · exact htia ▸ h
    · exact htia ▸ h.catchUp _
  write {b} address value h := by
    by_cases hreaches : b.ReachesVideo address
    · have htia := (write_of_reachesVideo hreaches value).tia
      exact htia ▸ h.perform (.write b.cycles b.afterRead address value)
    · have htia := (write_of_not_reachesVideo hreaches value).tia
      exact htia ▸ h
  elapse _ h := h

theorem Picture.complete_iff (picture : Picture) :
    picture.complete = true ↔ 0 < picture.width ∧ 0 < picture.height ∧
      picture.pixels.size = picture.width * picture.height := by
  simp only [complete, Bool.and_eq_true, decide_eq_true_eq, beq_iff_eq, and_assoc]

namespace Machine

theorem processFrame_framed {m : Machine} (h : m.board.tia.Framed) :
    m.processFrame.2.board.tia.Framed := by
  have hopen : m.openFrame.board.tia.Framed := by
    unfold openFrame
    split
    · exact h
    · exact (h.rebase _).beginFrame _
  have hrun : (runSlices m.openFrame.core sliceBudget).2.bus.tia.Framed :=
    runSlices_keeps Board.keeps_framed (fun _ hb ↦ hb) hopen sliceBudget
  unfold processFrame
  dsimp only
  rcases hresult : runSlices m.openFrame.core sliceBudget with ⟨_ | left, core⟩
  · rwa [hresult] at hrun
  · rw [hresult] at hrun
    unfold closeFrame
    dsimp only
    split
    · unfold reportOverrun
      split <;> exact hrun.finishFrame _
    · exact hrun.finishFrame _

theorem reset_framed (m : Machine) : m.reset.board.tia.Framed := by
  have hboard : m.board.reset.tia.Framed := by
    rw [Board.reset_tia]
    exact .powerOn _ 0
  have hreplayed := Board.keeps_framed.replay hboard
    { m.core with bus := m.board.reset }.resetTranscript
  obtain ⟨event, hreset⟩ := m.reset_board
  have hnote (b : Board) : (b.note event).tia = b.tia := rfl
  rw [hreset, hnote]
  exact hreplayed

/-- The buffers of a machine have their full size. -/
theorem Reachable.framed {m : Machine} (h : Reachable m) : m.board.tia.Framed := by
  induction h with
  | off config power journal => exact ⟨Nat.le_refl _, Tia.size_blankFrame, Tia.size_blankFrame⟩
  | insert h hcartridge ih => exact (Board.insert_tia _ _).symm ▸ ih
  | adopt | reset => exact reset_framed _
  | processFrame h ih => exact processFrame_framed ih
  | setSwitch | plug | listen | restartClock => assumption

/-! ## Heights -/

/-- The usual height of a standard fits the buffers. -/
theorem defaultHeight_le (television : Television) : television.defaultHeight ≤ 300 := by
  cases television <;> decide

/-- So does every height that is measured. -/
theorem placement_height_le (television : Television) (span : Tia.PictureSpan) :
    (placement television span).2 ≤ 300 := by
  unfold placement
  extract_lets plain height
  have hmeasured : UInt16.ofNat height.toNat ≤ 300 := by
    have hle : height ≤ maxHeight := Int.min_le_right _ _
    rw [UInt16.le_iff_toNat_le, UInt16.toNat_ofNat']
    refine (Nat.mod_le _ _).trans ?_
    change height.toNat ≤ 300
    simp only [maxHeight] at hle
    omega
  by_cases hshort : height < minHeight
  · rw [if_pos hshort]
    cases television <;> decide
  · rw [if_neg hshort]
    cases television with
    | ntsc => exact hmeasured
    | pal =>
      dsimp only
      split
      · exact defaultHeight_le .pal
      · exact hmeasured

/-- The machine has the configuration, and the height that is configured, or one that fits the buffers. -/
structure Follows (config : Config) (m : Machine) : Prop where
  config_eq : m.config = config
  height_eq : ∀ height, config.height = some height → m.height = height
  height_le : config.height = none → m.height ≤ 300

theorem Follows.of_eq {config : Config} {m n : Machine} (h : Follows config m)
    (hconfig : n.config = m.config) (hheight : n.height = m.height) : Follows config n := by
  obtain ⟨hown, heq, hle⟩ := h
  rw [← hconfig] at hown
  rw [← hheight] at heq hle
  exact ⟨hown, heq, hle⟩

theorem Follows.mapBoard {config : Config} {m : Machine} (h : Follows config m)
    (change : Board → Board) : Follows config (m.mapBoard change) :=
  h.of_eq rfl rfl

theorem follows_switchedOn (config : Config) (power : Riot.PowerOn) (journal : Journal) :
    Follows config (.switchedOn config power journal) := by
  have hheight : (Machine.switchedOn config power journal).height =
      config.height.getD (config.television.getD .ntsc).defaultHeight := rfl
  refine ⟨rfl, fun height hsome ↦ ?_, fun hnone ↦ ?_⟩
  · rw [hheight, hsome, Option.getD_some]
  · rw [hheight, hnone, Option.getD_none]
    exact defaultHeight_le _

theorem follows_outlasts (config : Config) : Outlasts (Follows config) where
  note _ h := h.mapBoard _
  reset h := h.of_eq rfl rfl
  processFrame {m} h := by
    obtain ⟨core, elapsed, reported, hframe⟩ := m.processFrame_eq
    rw [hframe]
    exact h.of_eq rfl rfl
  insert _ h := h.mapBoard _
  adoptTelevision {_ m} _ _ h television := by
    obtain ⟨rfl, heq, hle⟩ := h
    refine ⟨rfl, fun height hsome ↦ ?_, fun hnone ↦ ?_⟩
    · change (if m.config.height.isNone then _ else m.height) = height
      rw [hsome]
      exact heq height hsome
    · change (if m.config.height.isNone then television.defaultHeight else _) ≤ 300
      rw [hnone]
      exact defaultHeight_le television
  adoptPlacement {before m} hbefore hopen h television span := by
    rw [hbefore.config_eq] at hopen
    refine ⟨h.config_eq, fun height hsome ↦ ?_, fun _ ↦ ?_⟩
    · rw [hopen] at hsome
      cases hsome
    · have hheight : ∀ n : Machine, n.applySettings.height = n.height := fun n ↦ rfl
      rw [hheight]
      exact placement_height_le television span
  restartClock h := h.of_eq rfl rfl

/-- What the owner of a machine can ask of it. -/
inductive Call where
  | insert (image : ByteArray)
  | frame
  | reset

/-- Carries out a call, which may fail at any stage. -/
def serve (m : Machine) : Call → Machine
  | .insert image => (m.insertCartridge image).2
  | .frame => m.processFrame.2
  | .reset => m.reset

def serveAll (m : Machine) (calls : List Call) : Machine :=
  calls.foldl serve m

theorem Outlasts.serveAll {I : Machine → Prop} (h : Outlasts I) {m : Machine} (hm : I m)
    (calls : List Call) : I (m.serveAll calls) := by
  induction calls generalizing m with
  | nil => exact hm
  | cons call rest ih =>
    cases call with
    | insert image => exact ih (h.insertCartridge hm image)
    | frame => exact ih (h.processFrame hm)
    | reset => exact ih (h.reset hm)

/-- The picture has as many lines as the buffers have room for. -/
theorem size_rgbFrame {m : Machine} (h : m.board.tia.Framed) :
    m.rgbFrame.size = 160 * min m.height.toNat 300 := by
  have hsize : m.frameBuffer.size = 48000 := h.current
  simp only [rgbFrame, Array.size_map, ByteArray.size_data, ByteArray.size_extract, hsize,
    Tia.frameWidth]
  omega

theorem settings_clamped (config : Config) (television : Television) (yStart height : UInt16) :
    (settings config television yStart height).clamped =
      settings config television yStart (min height 300) :=
  rfl

theorem toNat_min_300 (height : UInt16) : (min height 300).toNat = min height.toNat 300 :=
  (apply_ite UInt16.toNat (height ≤ 300) height 300).trans
    (if_congr UInt16.le_iff_toNat_le rfl rfl)

theorem min_300_eq_left_iff {height : UInt16} : min height 300 = height ↔ height ≤ 300 := by
  rw [← UInt16.toNat_inj, toNat_min_300, UInt16.le_iff_toNat_le]
  exact inf_eq_left

/-- Whatever has been done to a machine, it has the height that is configured, the video chip has its settings but for
a height that the buffers have no room for, and the picture has as many lines as the chip copies.  All of this agrees
with the height of the machine, and with the size of its screenshots, exactly if no height is configured, or one that
fits. -/
theorem picture_size (config : Config) (power : Riot.PowerOn) (journal : Journal) (calls : List Call) :
    let m := (Machine.switchedOn config power journal).serveAll calls
    let fits := ∀ height, config.height = some height → height ≤ 300
    (∀ height, config.height = some height → m.height = height) ∧
      m.board.tia.settings = settings config m.television m.yStart (min m.height 300) ∧
      m.rgbFrame.size = 160 * (min m.height 300).toNat ∧
      (m.board.tia.settings = settings config m.television m.yStart m.height ↔ fits) ∧
      (m.rgbFrame.size = 160 * m.height.toNat ↔ fits) ∧
      (m.screenshot.complete = true ↔ 0 < m.height ∧ fits) := by
  intro m fits
  have hreachable : Reachable m := Reachable.outlasts.serveAll (.switchedOn config power journal) calls
  obtain ⟨hconfig, hconfigured, hfound⟩ : Follows config m :=
    (follows_outlasts config).serveAll (follows_switchedOn config power journal) calls
  have hsettings := hreachable.kept.settings_eq
  rw [chipSettings, hconfig, settings_clamped] at hsettings
  have hsize : m.rgbFrame.size = 160 * (min m.height 300).toNat := by
    rw [size_rgbFrame hreachable.framed, toNat_min_300]
  -- A machine has a taller picture only if it has been told to: what it finds out itself fits.
  have hfits : fits ↔ m.height ≤ 300 := by
    constructor
    · intro hfits
      rcases hheight : config.height with _ | height
      · exact hfound hheight
      · exact hconfigured height hheight ▸ hfits height hheight
    · intro hle height hheight
      exact hconfigured height hheight ▸ hle
  refine ⟨hconfigured, hsettings, hsize, ?_, ?_, ?_⟩
  · rw [hsettings, hfits, ← min_300_eq_left_iff]
    exact ⟨congrArg Tia.Settings.height, congrArg (settings config m.television m.yStart)⟩
  · rw [hsize, hfits, ← min_300_eq_left_iff, ← UInt16.toNat_inj]
    omega
  · have hcomplete : m.screenshot.complete = true ↔
        0 < m.height.toNat ∧ m.rgbFrame.size = 160 * m.height.toNat :=
      m.screenshot.complete_iff.trans (and_iff_right (by decide : 0 < Tia.frameWidth))
    rw [hcomplete, hsize, hfits, ← min_300_eq_left_iff, ← UInt16.toNat_inj, UInt16.lt_iff_toNat_lt]
    simp

/-- One line more than the buffers have room for.  The chip copies 300 lines, and no screenshot can be saved. -/
theorem tall_picture_falls_short :
    let m := Machine.new { television := some .ntsc, height := some 301, yStart := some 34 } {}
    m.height = 301 ∧ m.board.tia.settings.height = 300 ∧ m.rgbFrame.size = 160 * 300 ∧
      m.screenshot.png? = none := by
  intro m
  have hreachable : Reachable m := .switchedOn _ _ _
  have hsize : m.rgbFrame.size = 160 * 300 := size_rgbFrame hreachable.framed
  have hincomplete : ¬ m.screenshot.complete = true := by
    rw [Picture.complete_iff]
    rintro ⟨-, -, hfull⟩
    exact absurd (hsize.symm.trans hfull) (by decide)
  refine ⟨rfl, ?_, hsize, ?_⟩
  · rw [hreachable.kept.settings_eq]
    rfl
  · rw [Picture.png?, Picture.openFile?, if_neg hincomplete, Option.map_none]

end Machine

end Vcs
