import Vcs.Proofs.Console.Reachable

/-!
# The Frame Pump

A call of the frame pump is one run of the processor after another, the request to stop being cleared between
them.  Its trail are the moments of all of them: the events of the bus, each with the board that it met.  Before
the runs it sees to it that a frame is being drawn, and after them it only takes note of how the frame ended.
-/

namespace Vcs

namespace Board

/-- A stop has been asked for if and only if the frame is over. -/
def StopsWhenOver (b : Board) : Prop :=
  b.stop = !b.tia.frame.drawing

theorem keeps_stopsWhenOver : Bus.Keeps StopsWhenOver := by
  apply keeps_of_frameStep
  intro b past released after hstep hstops
  have hbefore : b.stop = !b.tia.frame.drawing := hstops
  rw [StopsWhenOver, hstep.stop, hstep.drawing, hbefore]
  cases b.tia.frame.drawing <;> cases past <;> cases released <;> rfl

/-- Nothing has changed that wiring, beam, clock and listeners consist of. -/
structure Idles (b after : Board) : Prop where
  cartridge : after.cartridge = b.cartridge
  pages : after.pages = b.pages
  store : after.store = b.store
  beam : after.tia.beam = b.tia.beam
  cycles : after.cycles = b.cycles
  afterRead : after.afterRead = b.afterRead
  sound : after.sound = b.sound

namespace Idles

variable {b after : Board}

theorem clearStop (b : Board) : b.Idles { b with stop := false } :=
  ⟨rfl, rfl, rfl, rfl, rfl, rfl, rfl⟩

theorem note (b : Board) (event : Event) : b.Idles (b.note event) :=
  ⟨rfl, rfl, rfl, rfl, rfl, rfl, rfl⟩

theorem wired (h : b.Idles after) (hwired : b.Wired) : after.Wired :=
  hwired.of_eq h.cartridge h.pages h.store

end Idles

/-- A statement about the moments so far and the board outlasts the events of the bus and what is done to the
board between them. -/
structure Lasts (P : List (Moment Board) → Board → Prop) : Prop where
  step : ∀ past b event, P past b → P (past ++ [⟨b, event⟩]) (event.apply b)
  idle : ∀ past b after, b.Idles after → P past b → P past after

end Board

theorem Tia.finishFrame_frame (s : Tia) (cycles : Nat) :
    (s.finishFrame cycles).2.frame.drawing = s.frame.drawing ∧
      (s.finishFrame cycles).2.frame.overrun = s.frame.overrun := by
  unfold finishFrame
  split <;> exact ⟨rfl, rfl⟩

namespace Machine

theorem openFrame_drawing (m : Machine) : m.openFrame.board.tia.frame.drawing = true := by
  unfold openFrame
  split
  · next hdrawing => exact hdrawing
  · rfl

theorem openFrame_retired (m : Machine) : m.openFrame.core.retired = m.core.retired := by
  unfold openFrame
  split <;> rfl

/-- What is noted at the end of a frame leaves the frame alone. -/
structure Closes (m : Machine) (left : Nat) (status : FrameStatus) (next : Machine) : Prop where
  drawing : next.board.tia.frame.drawing = m.board.tia.frame.drawing
  overrun : next.board.tia.frame.overrun = m.board.tia.frame.overrun
  retired : next.core.retired = m.core.retired
  complete_iff : status = .complete ↔ left ≠ 0 ∧ m.board.tia.frame.overrun = false

theorem closeFrame_closes (m : Machine) (left : Nat) :
    m.Closes left (m.closeFrame left).1 (m.closeFrame left).2 := by
  have hframe := m.board.tia.finishFrame_frame m.board.cycles
  unfold closeFrame
  dsimp only
  split
  · next hover =>
    have hnot : ¬ (left ≠ 0 ∧ m.board.tia.frame.overrun = false) := by
      simpa [hframe.2, imp_iff_not_or] using hover
    unfold reportOverrun
    split <;> exact ⟨hframe.1, hframe.2, rfl, by simpa using hnot⟩
  · next hkept => exact ⟨hframe.1, hframe.2, rfl, by simpa [hframe.2] using hkept⟩

theorem closeFrame_idles (m : Machine) (left : Nat) : m.board.Idles (m.closeFrame left).2.board := by
  have hfinished : m.board.Idles
      { m.board with tia := (m.board.tia.finishFrame m.board.cycles).2 } := by
    unfold Tia.finishFrame
    split <;> exact ⟨rfl, rfl, rfl, rfl, rfl, rfl, rfl⟩
  unfold closeFrame reportOverrun
  dsimp only
  split
  · split
    · exact hfinished
    · exact ⟨hfinished.cartridge, hfinished.pages, hfinished.store, hfinished.beam, hfinished.cycles,
        hfinished.afterRead, hfinished.sound⟩
  · exact hfinished

/-- The moments of some slices. -/
def sliceMoments (core : Processor Board) : (budget : Nat) → List (Moment Board)
  | 0 => []
  | budget + 1 =>
    { core with bus := { core.bus with stop := false } }.runMoments sliceInstructions ++
      match runSlice core with
      | (.error _, _) => []
      | (.ok _, core) => if core.bus.tia.frame.drawing then sliceMoments core budget else []

/-- The moments of a call of the frame pump. -/
def frameMoments (m : Machine) : List (Moment Board) :=
  sliceMoments m.openFrame.core sliceBudget

theorem runSlices_along {P : List (Moment Board) → Board → Prop}
    (hstep : ∀ past b event, P past b → P (past ++ [⟨b, event⟩]) (event.apply b))
    (hclear : ∀ past b, P past b → P past { b with stop := false })
    {past : List (Moment Board)} {core : Processor Board} (hstart : P past core.bus) (budget : Nat) :
    Along P past (sliceMoments core budget) (runSlices core budget).2.bus := by
  induction budget generalizing past core with
  | zero => exact hstart
  | succ budget ih =>
    have hslice : Along P past
        ({ core with bus := { core.bus with stop := false } }.runMoments sliceInstructions)
        (runSlice core).2.bus :=
      Processor.runMoments_along hstep (hclear past core.bus hstart) 0 sliceInstructions
    rcases hresult : runSlice core with ⟨_ | count, next⟩
    · rw [hresult] at hslice
      simp only [sliceMoments, runSlices, hresult, List.append_nil]
      exact hslice
    · rw [hresult] at hslice
      simp only [sliceMoments, runSlices, hresult]
      apply hslice.append
      intro hnext
      split
      · exact ih hnext
      · exact hnext

/-- What lasts holds at every moment of a call of the frame pump, if it holds once a frame is being drawn. -/
theorem processFrame_lasts {P : List (Moment Board) → Board → Prop} (h : Board.Lasts P) {m : Machine}
    {past : List (Moment Board)} (hopened : P past m.openFrame.board) :
    Along P past m.frameMoments m.processFrame.2.board := by
  have hrun : Along P past m.frameMoments (runSlices m.openFrame.core sliceBudget).2.bus :=
    runSlices_along h.step (fun past b hb ↦ h.idle past b _ (.clearStop b) hb) hopened sliceBudget
  unfold processFrame
  dsimp only
  rcases hresult : runSlices m.openFrame.core sliceBudget with ⟨_ | left, core⟩
  · rw [hresult] at hrun
    exact hrun
  · rw [hresult] at hrun
    exact hrun.map_last fun hlast ↦
      h.idle _ _ _ (closeFrame_idles { m.openFrame with core := core } left) hlast

end Machine

end Vcs
