import Vcs.Proofs.Bytes
import Vcs.Proofs.Processor.Effect
import Vcs.Proofs.Processor.Slicing

/-!
# Stack Discipline

A program puts a byte, the status, a return address or an interrupted program on the stack and later takes it
off again, and in between it does the same with other things.  Main statement: on flat memory, wherever in page
one the stack begins, every pair of such instructions restores what it put away, as long as the pairs are nested
and never have more than the 256 bytes of the page on the stack, and the instructions between them leave the page
and the stack pointer alone.

What carries the induction is how far below the stack pointer a run may write.  A pair needs as much of that room
as it puts on the stack; what is left of it is for the pairs inside.
-/

namespace Vcs

theorem stackCell_eq (sp : UInt8) : stackCell sp = wordOf sp 1 := rfl

theorem highByte_stackCell (sp : UInt8) : highByte (stackCell sp) = 1 := by
  rw [stackCell_eq, highByte_wordOf]

theorem toNat_stackCell (sp : UInt8) : (stackCell sp).toNat = 256 + sp.toNat := by
  rw [stackCell_eq, toNat_wordOf]
  rfl

theorem stackCell_injective : Function.Injective stackCell := by
  intro first second h
  have hlow := congrArg lowByte h
  rwa [stackCell_eq, stackCell_eq, lowByte_wordOf, lowByte_wordOf] at hlow

/-- How far a cell lies below the stack pointer once that has gone down. -/
theorem toNat_sub_ofNat_sub (sp cell : UInt8) (count : Nat) (hcount : count ≤ 256) :
    (sp - UInt8.ofNat count - cell).toNat = ((sp - cell).toNat + (256 - count)) % 256 := by
  have hsp := sp.toNat_lt
  have hcell := cell.toNat_lt
  simp only [UInt8.toNat_sub, UInt8.toNat_ofNat']
  omega

/-- Bytes on the stack lie below its pointer, no further than there are bytes. -/
theorem mem_stacked {sp : UInt8} {bytes : List UInt8} {byte : UInt16 × UInt8}
    (hroom : bytes.length ≤ 256) (h : byte ∈ stacked sp bytes) :
    ∃ cell, byte.1 = stackCell cell ∧ (sp - cell).toNat < bytes.length := by
  induction bytes generalizing sp with
  | nil => exact absurd h List.not_mem_nil
  | cons first rest ih =>
    rw [List.length_cons] at hroom ⊢
    rcases List.mem_cons.mp h with rfl | hrest
    · exact ⟨sp, rfl, by simp⟩
    · obtain ⟨cell, hcell, hbelow⟩ := ih (by omega) hrest
      have hdown : (sp - 1 - cell).toNat = ((sp - cell).toNat + 255) % 256 :=
        toNat_sub_ofNat_sub sp cell 1 (by decide)
      have hlt := (sp - cell).toNat_lt
      exact ⟨cell, hcell, by omega⟩

/-- No two bytes go to one cell, as long as there are no more of them than cells. -/
theorem nodup_stacked {sp : UInt8} {bytes : List UInt8} (hroom : bytes.length ≤ 256) :
    ((stacked sp bytes).map Prod.fst).Nodup := by
  induction bytes generalizing sp with
  | nil => exact List.nodup_nil
  | cons first rest ih =>
    rw [List.length_cons] at hroom
    refine List.nodup_cons.mpr ⟨fun hmem ↦ ?_, ih (by omega)⟩
    obtain ⟨byte, hbyte, hsame⟩ := List.mem_map.mp hmem
    obtain ⟨cell, hcell, hbelow⟩ := mem_stacked (by omega) hbyte
    have hdown := toNat_sub_ofNat_sub sp sp 1 (by decide)
    rw [UInt8.sub_self] at hdown
    rw [stackCell_injective (hcell.symm.trans hsame)] at hbelow
    change (sp - 1 - sp).toNat = 255 at hdown
    omega

/-- What is put on the stack is there afterwards. -/
theorem FlatMemory.get_putAll_stacked {sp : UInt8} {bytes : List UInt8} (hroom : bytes.length ≤ 256)
    {memory : FlatMemory} (hpage : 512 ≤ memory.bytes.size) :
    ∀ byte ∈ stacked sp bytes, (memory.putAll (stacked sp bytes)).get byte.1 = byte.2 := by
  refine get_putAll_of_mem (nodup_stacked hroom) fun byte hbyte ↦ ?_
  obtain ⟨cell, hcell, -⟩ := mem_stacked hroom hbyte
  have hlt := cell.toNat_lt
  rw [hcell, toNat_stackCell]
  omega

/-- What goes on the stack and comes off it again. -/
inductive Frame where
  | item (content : StackItem)
  | call
  | interrupt
  deriving DecidableEq, Repr

namespace Frame

/-- The instruction that puts a frame on the stack. -/
def opener : Frame → Mnemonic
  | item .accumulator => .pha
  | item .status => .php
  | call => .jsr
  | interrupt => .brk

/-- The instruction that takes it off again. -/
def closer : Frame → Mnemonic
  | item .accumulator => .pla
  | item .status => .plp
  | call => .rts
  | interrupt => .rti

/-- The bytes that it takes. -/
def size : Frame → Nat
  | item _ => 1
  | call => 2
  | interrupt => 3

/-- The work of the instruction that puts it on the stack. -/
def opening : Frame → Operation
  | item content => .push content
  | call => .call
  | interrupt => .interrupt

/-- The work of the instruction that takes it off again. -/
def closing : Frame → Operation
  | item content => .pull content
  | call => .leave
  | interrupt => .leaveInterrupt

/-- What of the registers comes back to what it was.  A call goes on behind its three bytes.  An interrupt takes
two, and its status comes back as it was pushed, with the break flag set. -/
def Restores (before after : Registers) : Frame → Prop
  | item .accumulator => after.a = before.a
  | item .status => after.flags = before.flags
  | call => after.pc = before.pc + 3
  | interrupt => after.pc = before.pc + 2 ∧ after.flags = { before.flags with b := true }

theorem opener_operation (frame : Frame) : frame.opener.operation = some frame.opening := by
  rcases frame with (_ | _) | _ | _ <;> rfl

theorem closer_operation (frame : Frame) : frame.closer.operation = some frame.closing := by
  rcases frame with (_ | _) | _ | _ <;> rfl

theorem length_pushed (frame : Frame) (r : Registers) : (frame.opening.pushed r).length = frame.size := by
  cases frame <;> rfl

theorem size_le (frame : Frame) : frame.size ≤ 256 := by
  cases frame <;> simp [size]

end Frame

namespace Processor

section

variable (p : Processor FlatMemory)

theorem pull_registers (content : StackItem) :
    (p.pull content).registers =
      content.restore { p.registers with sp := p.registers.sp + 1 }
        (p.bus.get (stackCell (p.registers.sp + 1))) :=
  congrArg (content.restore _) (FlatMemory.get_congr (p.peek_bytes _) _)

theorem pull_bytes (content : StackItem) : (p.pull content).bus.bytes = p.bus.bytes :=
  (peek_bytes _ _).trans (p.peek_bytes _)

theorem pullPc_registers :
    p.pullPc.registers =
      { p.registers with
        sp := p.registers.sp + 1 + 1
        pc := wordOf (p.bus.get (stackCell (p.registers.sp + 1)))
          (p.bus.get (stackCell (p.registers.sp + 1 + 1))) } := by
  have hhigh := FlatMemory.get_congr (peek_bytes { p with
    registers := { p.registers with sp := p.registers.sp + 1 } } (stackCell (p.registers.sp + 1)))
    (stackCell (p.registers.sp + 1 + 1))
  exact congrArg (fun high ↦ { p.registers with
    sp := p.registers.sp + 1 + 1
    pc := wordOf (p.bus.get (stackCell (p.registers.sp + 1))) high }) hhigh

theorem leave_registers :
    p.leave.registers =
      { p.registers with
        sp := p.registers.sp + 1 + 1
        pc := wordOf (p.bus.get (stackCell (p.registers.sp + 1)))
          (p.bus.get (stackCell (p.registers.sp + 1 + 1))) + 1 } := by
  have hget (address : UInt16) : p.peekStack.bus.get address = p.bus.get address :=
    FlatMemory.get_congr (p.peek_bytes _) address
  have hpulled := p.peekStack.pullPc_registers
  rw [hget, hget] at hpulled
  exact congrArg (fun r : Registers ↦ { r with pc := r.pc + 1 }) hpulled

theorem leaveInterrupt_registers :
    p.leaveInterrupt.registers =
      { p.registers with
        sp := p.registers.sp + 1 + 1 + 1
        flags := .ofByte (p.bus.get (stackCell (p.registers.sp + 1)))
        pc := wordOf (p.bus.get (stackCell (p.registers.sp + 1 + 1)))
          (p.bus.get (stackCell (p.registers.sp + 1 + 1 + 1))) } := by
  have hget (address : UInt16) : (p.pull .status).bus.get address = p.bus.get address :=
    FlatMemory.get_congr (p.pull_bytes .status) address
  have hpulled := (p.pull .status).pullPc_registers
  rw [hget, hget, pull_registers] at hpulled
  exact hpulled

-- What comes back, if the memory still holds what was put on the stack from a cell down.
variable {sp : UInt8}

theorem pull_of_stacked (content : StackItem) {value : UInt8} (hsp : p.registers.sp = sp - 1)
    (hholds : ∀ byte ∈ stacked sp [value], p.bus.get byte.1 = byte.2) :
    (p.pull content).registers = content.restore { p.registers with sp := sp } value := by
  have hup : p.registers.sp + 1 = sp := by rw [hsp, UInt8.sub_add_cancel]
  rw [pull_registers, hup, hholds _ List.mem_cons_self]

theorem leave_of_stacked {word : UInt16} (hsp : p.registers.sp = sp - 2)
    (hholds : ∀ byte ∈ stacked sp [highByte word, lowByte word], p.bus.get byte.1 = byte.2) :
    p.leave.registers = { p.registers with sp := sp, pc := word + 1 } := by
  have hup : p.registers.sp + 1 = sp - 1 := by
    rw [hsp]
    grind
  simp only [stacked, List.forall_mem_cons] at hholds
  obtain ⟨hhigh, hlow, -⟩ := hholds
  rw [leave_registers, hup, UInt8.sub_add_cancel, hlow, hhigh, wordOf_lowByte_highByte]

theorem leaveInterrupt_of_stacked {word : UInt16} {flags : Flags} (hsp : p.registers.sp = sp - 3)
    (hholds : ∀ byte ∈ stacked sp [highByte word, lowByte word, flags.toByte],
      p.bus.get byte.1 = byte.2) :
    p.leaveInterrupt.registers = { p.registers with sp := sp, flags := flags, pc := word } := by
  have hup : p.registers.sp + 1 = sp - 1 - 1 := by
    rw [hsp]
    grind
  simp only [stacked, List.forall_mem_cons] at hholds
  obtain ⟨hhigh, hlow, hstatus, -⟩ := hholds
  rw [leaveInterrupt_registers, hup, UInt8.sub_add_cancel, UInt8.sub_add_cancel, hstatus, hlow,
    hhigh, wordOf_lowByte_highByte, Flags.ofByte_toByte]

end

section

variable {frame : Frame}

/-- The instruction that puts a frame on the stack: it does not fail, the stack pointer goes down, and nothing is
written but the frame. -/
theorem step_opener {β : Type} [Bus β] {p : Processor β} (h : p.instruction.mnemonic = frame.opener) :
    (∃ cycles, p.step.1 = .ok cycles) ∧
      p.step.2.registers.sp = p.registers.sp - UInt8.ofNat frame.size ∧
      p.writes = stacked p.registers.sp (frame.opening.pushed p.fetchOpcode.registers) := by
  have hoperation : p.instruction.mnemonic.operation = some frame.opening := by
    rw [h, frame.opener_operation]
  obtain ⟨hdone, hregisters⟩ := step_of_some hoperation
  refine ⟨hdone, ?_, ?_⟩
  · rw [hregisters]
    cases frame with
    | item content => rfl
    | call =>
      change p.registers.sp - 1 - 1 = p.registers.sp - 2
      grind
    | interrupt =>
      change p.registers.sp - 1 - 1 - 1 = p.registers.sp - 3
      grind
  · rw [writes, hoperation]
    cases frame <;> rfl

theorem step_closer_writes {β : Type} [Bus β] {p : Processor β}
    (h : p.instruction.mnemonic = frame.closer) :
    (∃ cycles, p.step.1 = .ok cycles) ∧ p.writes = [] := by
  have hoperation : p.instruction.mnemonic.operation = some frame.closing := by
    rw [h, frame.closer_operation]
  refine ⟨(step_of_some hoperation).1, ?_⟩
  rw [writes, hoperation]
  cases frame <;> rfl

/-- The instruction that takes a frame off the stack, if the bytes of the frame are where they were put. -/
theorem step_closer {opening closing : Processor FlatMemory}
    (hopens : opening.instruction.mnemonic = frame.opener)
    (hcloses : closing.instruction.mnemonic = frame.closer)
    (hsp : closing.registers.sp = opening.step.2.registers.sp)
    (hholds : ∀ byte ∈ opening.writes, closing.bus.get byte.1 = byte.2) :
    closing.step.2.registers.sp = opening.registers.sp ∧
      frame.Restores opening.registers closing.step.2.registers := by
  obtain ⟨-, hdown, hwrites⟩ := step_opener hopens
  have hoperation : closing.instruction.mnemonic.operation = some frame.closing := by
    rw [hcloses, frame.closer_operation]
  let fetched := closing.fetchOpcode
  have hbelow : fetched.registers.sp = opening.registers.sp - UInt8.ofNat frame.size :=
    hsp.trans hdown
  have hfetched : ∀ byte ∈ stacked opening.registers.sp (frame.opening.pushed opening.fetchOpcode.registers),
      fetched.bus.get byte.1 = byte.2 := by
    rw [← hwrites]
    exact fun byte hbyte ↦
      (FlatMemory.get_congr (closing.peek_bytes _) byte.1).trans (hholds byte hbyte)
  rw [(step_of_some hoperation).2]
  cases frame with
  | item content =>
    change (fetched.pull content).registers.sp = _ ∧ Frame.Restores _ (fetched.pull content).registers _
    rw [fetched.pull_of_stacked content hbelow hfetched]
    cases content with
    | accumulator => exact ⟨rfl, rfl⟩
    | status => exact ⟨rfl, Flags.ofByte_toByte _⟩
  | call =>
    change fetched.leave.registers.sp = _ ∧ Frame.Restores _ fetched.leave.registers _
    rw [fetched.leave_of_stacked hbelow hfetched]
    refine ⟨rfl, ?_⟩
    change opening.registers.pc + 1 + 1 + 1 = opening.registers.pc + 3
    grind
  | interrupt =>
    change fetched.leaveInterrupt.registers.sp = _ ∧ Frame.Restores _ fetched.leaveInterrupt.registers _
    rw [fetched.leaveInterrupt_of_stacked hbelow hfetched]
    refine ⟨rfl, ?_, rfl⟩
    change opening.registers.pc + 1 + 1 = opening.registers.pc + 2
    grind

end

/-! ## Runs of nested pairs -/

/-- The next instruction leaves page one and the stack pointer alone. -/
def SparesStack (p : Processor FlatMemory) : Prop :=
  p.step.2.registers.sp = p.registers.sp ∧
    ∀ address value, .write address value ∈ p.transcript → highByte address ≠ 1

theorem sparesStack_iff {p : Processor FlatMemory} :
    p.SparesStack ↔
      p.step.2.registers.sp = p.registers.sp ∧ ∀ byte ∈ p.writes, highByte byte.1 ≠ 1 := by
  simp only [SparesStack, write_mem_transcript, Prod.forall]

/-- Two instructions that belong together, and the processor in front of either. -/
structure StackPair where
  frame : Frame
  opening : Processor FlatMemory
  closing : Processor FlatMemory

/-- What a pair is to do: it does not fail, brings back the stack pointer and what it put away, and of memory
it writes page one alone. -/
structure StackPair.Balanced (pair : StackPair) : Prop where
  opens : ∃ cycles, pair.opening.step.1 = .ok cycles
  closes : ∃ cycles, pair.closing.step.1 = .ok cycles
  sp_eq : pair.closing.step.2.registers.sp = pair.opening.registers.sp
  restores : pair.frame.Restores pair.opening.registers pair.closing.step.2.registers
  opening_writes : ∀ address value, .write address value ∈ pair.opening.transcript → highByte address = 1
  closing_writes : ∀ address value, .write address value ∉ pair.closing.transcript

/-- A run from one processor to another, all the pairs of which are nested in each other and never have more on
the stack than there is room for. -/
inductive Nested : (room : Nat) → Processor FlatMemory → List StackPair → Processor FlatMemory → Prop where
  | nil {room : Nat} {p : Processor FlatMemory} : Nested room p [] p
  | between {room : Nat} {p q : Processor FlatMemory} {pairs : List StackPair} (spares : p.SparesStack)
      (rest : Nested room p.step.2 pairs q) : Nested room p pairs q
  | pair {room : Nat} {p closing q : Processor FlatMemory} {inner outer : List StackPair} {frame : Frame}
      (opens : p.instruction.mnemonic = frame.opener) (fits : frame.size ≤ room)
      (body : Nested (room - frame.size) p.step.2 inner closing)
      (closes : closing.instruction.mnemonic = frame.closer)
      (rest : Nested room closing.step.2 outer q) : Nested room p (⟨frame, p, closing⟩ :: inner ++ outer) q

/-- The stack pointer is where it was, and so is everything but some bytes below it. -/
structure KeepsStack (room : Nat) (p q : Processor FlatMemory) : Prop where
  sp_eq : q.registers.sp = p.registers.sp
  size_eq : q.bus.bytes.size = p.bus.bytes.size
  get_eq : ∀ cell, room ≤ (p.registers.sp - cell).toNat →
    q.bus.get (stackCell cell) = p.bus.get (stackCell cell)

section

variable {room : Nat} {p q r : Processor FlatMemory} {pairs : List StackPair}

theorem KeepsStack.trans (hfirst : KeepsStack room p q) (hsecond : KeepsStack room q r) :
    KeepsStack room p r where
  sp_eq := hsecond.sp_eq.trans hfirst.sp_eq
  size_eq := hsecond.size_eq.trans hfirst.size_eq
  get_eq cell hbelow := by
    rw [hsecond.get_eq cell (by rwa [hfirst.sp_eq]), hfirst.get_eq cell hbelow]

theorem SparesStack.keeps (h : p.SparesStack) : KeepsStack room p p.step.2 where
  sp_eq := h.1
  size_eq := p.step_size
  get_eq cell _ := by
    rw [step_get]
    refine FlatMemory.get_putAll_of_notMem (fun byte hbyte hcell ↦ ?_) p.bus
    exact (sparesStack_iff.mp h).2 byte hbyte (by rw [hcell, highByte_stackCell])

/-- A pair around a run that does with what room the pair leaves. -/
theorem pair_keeps {frame : Frame} (hopens : p.instruction.mnemonic = frame.opener)
    (hfits : frame.size ≤ room) (hroom : room ≤ 256) (hpage : 512 ≤ p.bus.bytes.size)
    (hbody : KeepsStack (room - frame.size) p.step.2 q) (hcloses : q.instruction.mnemonic = frame.closer) :
    KeepsStack room p q.step.2 ∧ StackPair.Balanced ⟨frame, p, q⟩ := by
  obtain ⟨hopened, hdown, hwrites⟩ := step_opener hopens
  obtain ⟨hclosed, hsilent⟩ := step_closer_writes hcloses
  have hlength : (frame.opening.pushed p.fetchOpcode.registers).length = frame.size :=
    frame.length_pushed _
  have hwritten {byte : UInt16 × UInt8} (hbyte : byte ∈ p.writes) :
      ∃ cell, byte.1 = stackCell cell ∧ (p.registers.sp - cell).toNat < frame.size := by
    rw [hwrites] at hbyte
    rw [← hlength]
    exact mem_stacked (hlength.trans_le frame.size_le) hbyte
  -- Cells at the pair's own depth or above are out of reach of what is inside.
  have hreach (cell : UInt8)
      (hcell : (p.registers.sp - cell).toNat < frame.size ∨ room ≤ (p.registers.sp - cell).toNat) :
      q.bus.get (stackCell cell) = p.step.2.bus.get (stackCell cell) := by
    refine hbody.get_eq cell ?_
    have hlt := (p.registers.sp - cell).toNat_lt
    rw [hdown, toNat_sub_ofNat_sub _ _ _ frame.size_le]
    omega
  have hholds : ∀ byte ∈ p.writes, q.bus.get byte.1 = byte.2 := by
    intro byte hbyte
    obtain ⟨cell, hcell, hnear⟩ := hwritten hbyte
    have hput : (p.bus.putAll p.writes).get byte.1 = byte.2 := by
      rw [hwrites] at hbyte ⊢
      exact FlatMemory.get_putAll_stacked (hlength.trans_le frame.size_le) hpage byte hbyte
    rw [hcell, hreach cell (.inl hnear), ← hcell, step_get, hput]
  obtain ⟨hsp, hrestores⟩ := step_closer hopens hcloses hbody.sp_eq hholds
  refine ⟨⟨hsp, ?_, ?_⟩, ⟨hopened, hclosed, hsp, hrestores, ?_, ?_⟩⟩
  · rw [step_size, hbody.size_eq, step_size]
  · intro cell hfar
    have hspared : ∀ byte ∈ p.writes, byte.1 ≠ stackCell cell := by
      intro byte hbyte hsame
      obtain ⟨other, hother, hnear⟩ := hwritten hbyte
      rw [stackCell_injective (hother.symm.trans hsame)] at hnear
      omega
    rw [step_get, hsilent]
    change q.bus.get (stackCell cell) = _
    rw [hreach cell (.inr hfar), step_get, FlatMemory.get_putAll_of_notMem hspared]
  · intro address value hwrite
    obtain ⟨cell, hcell, -⟩ := hwritten (write_mem_transcript.mp hwrite)
    rw [show address = stackCell cell from hcell, highByte_stackCell]
  · intro address value hwrite
    have hnone := write_mem_transcript.mp hwrite
    rw [hsilent] at hnone
    exact List.not_mem_nil hnone

theorem Nested.keeps (h : Nested room p pairs q) (hroom : room ≤ 256)
    (hpage : 512 ≤ p.bus.bytes.size) :
    KeepsStack room p q ∧ ∀ pair ∈ pairs, pair.Balanced := by
  induction h with
  | nil => exact ⟨⟨rfl, rfl, fun _ _ ↦ rfl⟩, fun pair hpair ↦ absurd hpair List.not_mem_nil⟩
  | between spares _ ih =>
    obtain ⟨hkeeps, hpairs⟩ := ih hroom (by rwa [step_size])
    exact ⟨spares.keeps.trans hkeeps, hpairs⟩
  | pair opens fits _ closes _ ihBody ihRest =>
    obtain ⟨hbody, hinner⟩ := ihBody (by omega) (by rwa [step_size])
    obtain ⟨hpair, hbalanced⟩ := pair_keeps opens fits hroom hpage hbody closes
    obtain ⟨hrest, houter⟩ := ihRest hroom (by rwa [hpair.size_eq])
    refine ⟨hpair.trans hrest, fun other hother ↦ ?_⟩
    rcases List.mem_append.mp hother with hfirst | hlater
    · rcases List.mem_cons.mp hfirst with rfl | hinside
      · exact hbalanced
      · exact hinner other hinside
    · exact houter other hlater

/-- A nested run is a run. -/
theorem Nested.stepped (h : Nested room p pairs q) : ∃ count, q = p.stepped count := by
  induction h with
  | nil => exact ⟨0, rfl⟩
  | between _ _ ih =>
    obtain ⟨count, rfl⟩ := ih
    exact ⟨count + 1, rfl⟩
  | pair _ _ _ _ _ ihBody ihRest =>
    obtain ⟨inside, rfl⟩ := ihBody
    obtain ⟨behind, rfl⟩ := ihRest
    refine ⟨inside + 1 + 1 + behind, ?_⟩
    rw [stepped_add, stepped_succ, ← stepped_step]

/-- Whatever is put on the stack comes off it as it was. -/
theorem stack_discipline (h : Nested 256 p pairs q) (hpage : 512 ≤ p.bus.bytes.size) :
    (∃ count, q = p.stepped count) ∧ q.registers.sp = p.registers.sp ∧ ∀ pair ∈ pairs, pair.Balanced := by
  obtain ⟨hkeeps, hpairs⟩ := h.keeps le_rfl hpage
  exact ⟨h.stepped, hkeeps.sp_eq, hpairs⟩

/-- The processor is at an address of some memory, which only page one can have left. -/
def At (p : Processor FlatMemory) (memory : FlatMemory) (pc : UInt16) : Prop :=
  p.registers.pc = pc ∧ ∀ address, highByte address ≠ 1 → p.bus.get address = memory.get address

/-- Behind an instruction that pushes or pulls one byte comes the next byte of code. -/
theorem At.step {memory : FlatMemory} {pc : UInt16} {content : StackItem} (h : p.At memory pc)
    (hcode : p.instruction.mnemonic = (Frame.item content).opener ∨
      p.instruction.mnemonic = (Frame.item content).closer) : p.step.2.At memory (pc + 1) := by
  obtain ⟨rfl, hmemory⟩ := h
  rcases hcode with hopens | hcloses
  · have hoperation : p.instruction.mnemonic.operation = some (.push content) := by
      rw [hopens, Frame.opener_operation]
      rfl
    refine ⟨congrArg Registers.pc (step_of_some hoperation).2, fun address hpage ↦ ?_⟩
    rw [← hmemory address hpage, step_get, (step_opener hopens).2.2]
    refine FlatMemory.get_putAll_of_notMem (fun byte hbyte hsame ↦ hpage ?_) _
    obtain ⟨cell, hcell, -⟩ := mem_stacked (Nat.le_of_ble_eq_true rfl) hbyte
    rw [← hsame, hcell, highByte_stackCell]
  · have hoperation : p.instruction.mnemonic.operation = some (.pull content) := by
      rw [hcloses, Frame.closer_operation]
      rfl
    have hregisters := (step_of_some hoperation).2
    change p.step.2.registers = (p.fetchOpcode.pull content).registers at hregisters
    rw [pull_registers] at hregisters
    refine ⟨?_, fun address hpage ↦ ?_⟩
    · rw [hregisters]
      cases content <;> rfl
    · rw [← hmemory address hpage, step_get, (step_closer_writes hcloses).2]
      rfl

theorem At.mnemonic {memory : FlatMemory} {pc : UInt16} (h : p.At memory pc) (hpage : highByte pc ≠ 1) :
    p.instruction.mnemonic = (Instruction.decode (memory.get pc)).mnemonic := by
  rw [instruction_eq, h.1, h.2 pc hpage]

/-- Code that saves the status around the accumulator, and the pairs in it. -/
theorem At.nested {memory : FlatMemory} (hat₀ : p.At memory 0) (hphp : memory.get 0 = 0x08)
    (hpha : memory.get 1 = 0x48) (hpla : memory.get 2 = 0x68) (hplp : memory.get 3 = 0x28) :
    Nested 256 p
      [⟨.item .status, p, p.stepped 3⟩, ⟨.item .accumulator, p.stepped 1, p.stepped 2⟩]
      (p.stepped 4) := by
  have hcode₀ : p.instruction.mnemonic = .php := by
    rw [hat₀.mnemonic (by decide), hphp]
    decide +kernel
  have hat₁ : (p.stepped 1).At memory 1 := @At.step p memory 0 .status hat₀ (.inl hcode₀)
  have hcode₁ : (p.stepped 1).instruction.mnemonic = .pha := by
    rw [hat₁.mnemonic (by decide), hpha]
    decide +kernel
  have hat₂ : (p.stepped 2).At memory 2 := @At.step _ memory 1 .accumulator hat₁ (.inl hcode₁)
  have hcode₂ : (p.stepped 2).instruction.mnemonic = .pla := by
    rw [hat₂.mnemonic (by decide), hpla]
    decide +kernel
  have hat₃ : (p.stepped 3).At memory 3 := @At.step _ memory 2 .accumulator hat₂ (.inr hcode₂)
  have hcode₃ : (p.stepped 3).instruction.mnemonic = .plp := by
    rw [hat₃.mnemonic (by decide), hplp]
    decide +kernel
  have hinner := @Nested.pair 255 (p.stepped 1) (p.stepped 2) (p.stepped 3) [] [] (.item .accumulator)
    hcode₁ (by decide) .nil hcode₂ .nil
  exact @Nested.pair 256 p (p.stepped 3) (p.stepped 4) _ [] (.item .status)
    hcode₀ (by decide) hinner hcode₃ .nil

/-- The stack begins at the bottom of its page, so the accumulator goes to the top. -/
theorem stack_discipline_of_saving :
    let memory := FlatMemory.blank.putAll [(0, 0x08), (1, 0x48), (2, 0x68), (3, 0x28)]
    let p : Processor FlatMemory := { registers := { a := 7, sp := 0 }, bus := memory }
    (p.stepped 4).registers.sp = p.registers.sp ∧
      StackPair.Balanced ⟨.item .status, p, p.stepped 3⟩ ∧
      StackPair.Balanced ⟨.item .accumulator, p.stepped 1, p.stepped 2⟩ := by
  intro memory p
  have hsize : p.bus.bytes.size = 65536 := (FlatMemory.size_putAll _ _).trans FlatMemory.size_blank
  have hbytes : ∀ byte ∈ [((0 : UInt16), (0x08 : UInt8)), (1, 0x48), (2, 0x68), (3, 0x28)],
      memory.get byte.1 = byte.2 := by
    refine FlatMemory.get_putAll_of_mem (by decide) fun byte _ ↦ ?_
    rw [FlatMemory.size_blank]
    exact byte.1.toNat_lt
  simp only [List.forall_mem_cons] at hbytes
  obtain ⟨hphp, hpha, hpla, hplp, -⟩ := hbytes
  have hat : p.At memory 0 := ⟨rfl, fun _ _ ↦ rfl⟩
  obtain ⟨-, hsp, hpairs⟩ :=
    stack_discipline (hat.nested hphp hpha hpla hplp) (by rw [hsize]; decide)
  exact ⟨hsp, hpairs _ List.mem_cons_self, hpairs _ (List.mem_cons_of_mem _ List.mem_cons_self)⟩

end

end Processor

end Vcs
