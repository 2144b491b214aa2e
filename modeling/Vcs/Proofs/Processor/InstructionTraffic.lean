import Vcs.Proofs.Processor.StackDiscipline

/-!
# Instruction Traffic

How many bytes an instruction takes and what it does on the bus.  Three tables have a say in it: the mode of an
opcode, the work of its mnemonic, and the reads of the operand, which leave behind the address that a store goes
to.  Main statement: on any bus they agree for every opcode.  An instruction that can be executed goes on behind
the operand bytes of its mode unless it is made to go elsewhere.  What replaces its operand writes once, last, to
the address that it has read just before, and that is the address its mode gives; what uses the stack writes a
known number of bytes there; nothing else writes.  An opcode that cannot be executed is read and that is all.

What the mode gives is told by the accesses alone: which bytes are fetched, where they point, and what is read
there.
-/

namespace Vcs

namespace Mnemonic

/-- The names of the undocumented instructions that can be executed. -/
def supportedNames : List String :=
  ["sax", "lax", "sbx", "dcp", "isb", "slo", "rla", "asr", "nop"]

/-- The instructions that can be executed: the documented ones, which have their names in capitals, and a few
others. -/
def Supported (mnemonic : Mnemonic) : Prop :=
  mnemonic.name.toList.all Char.isUpper = true ∨ mnemonic.name ∈ supportedNames

instance (mnemonic : Mnemonic) : Decidable mnemonic.Supported :=
  inferInstanceAs (Decidable (_ ∨ _))

/-- Stores, and the instructions that read an operand, modify it and write it back. -/
def writesOperand : Mnemonic → Bool
  | sta | stx | sty | sax => true
  | asl | lsr | rol | ror | inc | dec | dcp | isb | slo | rla => true
  | _ => false

/-- Bytes that an instruction puts on the stack. -/
def stackedBytes : Mnemonic → Nat
  | pha | php => 1
  | jsr => 2
  | brk => 3
  | _ => 0

/-- Whether the instruction is a branch that is taken. -/
def takes (mnemonic : Mnemonic) (flags : Flags) : Bool :=
  match mnemonic with
  | bpl => !flags.n
  | bmi => flags.n
  | bvc => !flags.v
  | bvs => flags.v
  | bcc => !flags.c
  | bcs => flags.c
  | bne => flags.notZ
  | beq => !flags.notZ
  | _ => false

/-- Whether the program goes on with the byte behind the instruction. -/
def fallsThrough (mnemonic : Mnemonic) (flags : Flags) : Bool :=
  match mnemonic with
  | brk | jsr | jmp | rts | rti => false
  | _ => !mnemonic.takes flags

theorem supported_iff (mnemonic : Mnemonic) :
    mnemonic.Supported ↔ mnemonic.operation.isSome = true := by
  cases mnemonic <;> decide

section

variable {mnemonic : Mnemonic} {operation : Operation}
  (h : mnemonic.operation = some operation)

include h

theorem writesOperand_eq : mnemonic.writesOperand = operation.stores := by
  cases mnemonic <;> cases h <;> rfl

theorem length_pushed_eq (r : Registers) : (operation.pushed r).length = mnemonic.stackedBytes := by
  cases mnemonic <;> cases h <;> rfl

/-- What goes on with the next byte is neither a jump nor a branch whose flag is as it wants it. -/
theorem fallsThrough_eq (flags : Flags) :
    mnemonic.fallsThrough flags =
      match operation with
      | .jump | .call | .leave | .leaveInterrupt | .interrupt => false
      | .branch flag on => flags.get flag != on
      | _ => true := by
  cases mnemonic <;> cases h <;> simp [fallsThrough, takes, Flags.get, Flags.zero]

end

end Mnemonic

/-- The reads of an operand at an indexed address.  An index that carries out of the low byte makes the
processor read twice. -/
inductive IndexedReads (base : UInt16) (index : UInt8) : List BusEvent → Prop
  | inside (value : UInt8) (h : (lowByte base).toNat + index.toNat < 256) :
    IndexedReads base index [.read (base + index.toUInt16) value]
  | across (dropped value : UInt8) (h : 256 ≤ (lowByte base).toNat + index.toNat) :
    IndexedReads base index
      [.read (base + index.toUInt16) dropped, .read (base + index.toUInt16) value]

/-- The accesses by which a mode finds its operand, and the address where that is, the program counter being
behind the opcode.  Sums of bytes stay in page zero. -/
inductive AddressingMode.Finds (r : Registers) : AddressingMode → List BusEvent → UInt16 → Prop
  | immediate (value : UInt8) : Finds r .immediate [.read r.pc value] r.pc
  | relative (value : UInt8) : Finds r .relative [.read r.pc value] r.pc
  | zeroPage (base value : UInt8) :
    Finds r .zeroPage [.read r.pc base, .read base.toUInt16 value] base.toUInt16
  | zeroPageX (base dropped value : UInt8) :
    Finds r .zeroPageX
      [.read r.pc base, .read base.toUInt16 dropped, .read (base + r.x).toUInt16 value]
      (base + r.x).toUInt16
  | zeroPageY (base dropped value : UInt8) :
    Finds r .zeroPageY
      [.read r.pc base, .read base.toUInt16 dropped, .read (base + r.y).toUInt16 value]
      (base + r.y).toUInt16
  | absolute (low high value : UInt8) :
    Finds r .absolute
      [.read r.pc low, .read (r.pc + 1) high, .read (wordOf low high) value] (wordOf low high)
  | absoluteX (low high : UInt8) {reads : List BusEvent}
      (h : IndexedReads (wordOf low high) r.x reads) :
    Finds r .absoluteX (.read r.pc low :: .read (r.pc + 1) high :: reads)
      (wordOf low high + r.x.toUInt16)
  | absoluteY (low high : UInt8) {reads : List BusEvent}
      (h : IndexedReads (wordOf low high) r.y reads) :
    Finds r .absoluteY (.read r.pc low :: .read (r.pc + 1) high :: reads)
      (wordOf low high + r.y.toUInt16)
  | indirectX (base low high value : UInt8) :
    Finds r .indirectX
      [.read r.pc base, .read (base + r.x).toUInt16 low, .read (base + r.x + 1).toUInt16 high,
        .read (wordOf low high) value] (wordOf low high)
  | indirectY (base low high : UInt8) {reads : List BusEvent}
      (h : IndexedReads (wordOf low high) r.y reads) :
    Finds r .indirectY
      (.read r.pc base :: .read base.toUInt16 low :: .read (base + 1).toUInt16 high :: reads)
      (wordOf low high + r.y.toUInt16)

/-- The last of the reads is that of the operand. -/
theorem IndexedReads.exists_append {base : UInt16} {index : UInt8} {reads : List BusEvent}
    (h : IndexedReads base index reads) :
    ∃ before value, reads = before ++ [.read (base + index.toUInt16) value] := by
  cases h with
  | inside value => exact ⟨[], value, rfl⟩
  | across dropped value => exact ⟨[_], value, rfl⟩

theorem AddressingMode.Finds.exists_append {r : Registers} {mode : AddressingMode}
    {reads : List BusEvent} {address : UInt16} (h : mode.Finds r reads address) :
    ∃ before value, reads = before ++ [.read address value] := by
  cases h with
  | immediate value | relative value => exact ⟨[], value, rfl⟩
  | zeroPage base value => exact ⟨[_], value, rfl⟩
  | zeroPageX base dropped value | zeroPageY base dropped value => exact ⟨[_, _], value, rfl⟩
  | absolute low high value => exact ⟨[_, _], value, rfl⟩
  | absoluteX low high hindexed | absoluteY low high hindexed =>
    obtain ⟨before, value, rfl⟩ := hindexed.exists_append
    exact ⟨_ :: _ :: before, value, rfl⟩
  | indirectX base low high value => exact ⟨[_, _, _], value, rfl⟩
  | indirectY base low high hindexed =>
    obtain ⟨before, value, rfl⟩ := hindexed.exists_append
    exact ⟨_ :: _ :: _ :: before, value, rfl⟩

namespace Processor

variable {β : Type} [Bus β]

/-! ## Accesses -/

/-- On its way from `p` to `q` the processor makes these accesses, in this order. -/
def Traces {β : Type} (p q : Processor (Recorder β)) (accesses : List BusEvent) : Prop :=
  ∃ events, q.bus.events = p.bus.events ++ events ∧ events.filter BusEvent.isAccess = accesses

namespace Traces

variable {p q r : Processor (Recorder β)} {first second : List BusEvent}

omit [Bus β] in
theorem trans (hfirst : Traces p q first) (hsecond : Traces q r second) :
    Traces p r (first ++ second) := by
  obtain ⟨before, hbefore, rfl⟩ := hfirst
  obtain ⟨after, hafter, rfl⟩ := hsecond
  exact ⟨before ++ after, by rw [hafter, hbefore, List.append_assoc], List.filter_append ..⟩

end Traces

section

variable (p : Processor (Recorder β))

theorem traces_peek (address : UInt16) :
    Traces p (p.peek address) [.read address (p.peek address).latch] :=
  ⟨_, p.peek_events address, rfl⟩

theorem traces_poke (address : UInt16) (value : UInt8) :
    Traces p (p.poke address value) [.write address value] :=
  ⟨_, rfl, rfl⟩

theorem traces_fetch : Traces p p.fetch [.read p.registers.pc p.fetch.latch] :=
  p.traces_peek p.registers.pc

theorem traces_readAt (address : UInt16) :
    Traces p (p.readAt address) [.read address (p.readAt address).latch] :=
  { p with address := address }.traces_peek address

theorem traces_settle (cost : Nat) : Traces p (p.settle cost) [] := by
  by_cases hrest : cost - p.signalled = 0
  · rw [settle, if_pos hrest]
    exact ⟨[], (List.append_nil _).symm, rfl⟩
  · rw [settle, if_neg hrest]
    exact ⟨[.elapse (cost - p.signalled)], rfl, rfl⟩

theorem traces_fetchPair :
    Traces p p.fetchPair.2
      [.read p.registers.pc p.fetchPair.1, .read (p.registers.pc + 1) p.fetchPair.2.latch] :=
  p.traces_fetch.trans p.fetch.traces_fetch

theorem traces_peekPair (pointer : UInt8) :
    Traces p (p.peekPair pointer).2
      [.read pointer.toUInt16 (p.peekPair pointer).1,
        .read (pointer + 1).toUInt16 (p.peekPair pointer).2.latch] :=
  (p.traces_peek _).trans (traces_peek _ _)

theorem traces_readIndexed (base : UInt16) (index : UInt8) :
    (p.readIndexed base index).address = base + index.toUInt16 ∧
      ∃ reads, Traces p (p.readIndexed base index) reads ∧ IndexedReads base index reads := by
  unfold readIndexed
  dsimp only
  split
  · next hcrosses =>
    have hcarry : 256 ≤ (lowByte base).toNat + index.toNat := of_decide_eq_true hcrosses
    exact ⟨rfl, _, (traces_peek { p with surcharge := 1 } _).trans (traces_readAt _ _),
      .across _ _ hcarry⟩
  · next hcrosses =>
    have hcarry : ¬ 256 ≤ (lowByte base).toNat + index.toNat :=
      fun hcarry ↦ hcrosses (decide_eq_true hcarry)
    exact ⟨rfl, _, p.traces_readAt _, .inside _ (Nat.lt_of_not_le hcarry)⟩

/-- Where a mode finds its operand is what the accesses say that it gives. -/
theorem traces_readOperand {mode : AddressingMode} (hmode : mode.locates = true) :
    ∃ reads, Traces p (p.readOperand mode) reads ∧
      mode.Finds p.registers reads (p.readOperand mode).address := by
  cases mode with
  | immediate => exact ⟨_, traces_fetch _, .immediate _⟩
  | relative => exact ⟨_, traces_fetch _, .relative _⟩
  | zeroPage => exact ⟨_, p.traces_fetch.trans (traces_readAt _ _), .zeroPage _ _⟩
  | zeroPageX =>
    exact ⟨_, (p.traces_fetch.trans (traces_peek _ _)).trans (traces_readAt _ _), .zeroPageX _ _ _⟩
  | zeroPageY =>
    exact ⟨_, (p.traces_fetch.trans (traces_peek _ _)).trans (traces_readAt _ _), .zeroPageY _ _ _⟩
  | absolute => exact ⟨_, p.traces_fetchPair.trans (traces_readAt _ _), .absolute _ _ _⟩
  | absoluteX =>
    let base := wordOf p.fetchPair.1 p.fetchPair.2.latch
    obtain ⟨haddress, reads, htraces, hindexed⟩ :=
      p.fetchPair.2.traces_readIndexed base p.registers.x
    exact ⟨_, p.traces_fetchPair.trans htraces, haddress ▸ .absoluteX _ _ hindexed⟩
  | absoluteY =>
    let base := wordOf p.fetchPair.1 p.fetchPair.2.latch
    obtain ⟨haddress, reads, htraces, hindexed⟩ :=
      p.fetchPair.2.traces_readIndexed base p.registers.y
    exact ⟨_, p.traces_fetchPair.trans htraces, haddress ▸ .absoluteY _ _ hindexed⟩
  | indirectX =>
    exact ⟨_, (p.traces_fetch.trans (traces_peekPair _ _)).trans (traces_readAt _ _),
      .indirectX _ _ _ _⟩
  | indirectY =>
    let pair := p.fetch.peekPair p.fetch.latch
    obtain ⟨haddress, reads, htraces, hindexed⟩ :=
      pair.2.traces_readIndexed (wordOf pair.1 pair.2.latch) p.registers.y
    exact ⟨_, (p.traces_fetch.trans (traces_peekPair _ _)).trans htraces,
      haddress ▸ .indirectY _ _ _ hindexed⟩
  | indirect | implied | invalid => exact absurd hmode Bool.false_ne_true

end

/-- The accesses of the next instruction, in order. -/
def accesses (p : Processor β) : List BusEvent :=
  p.transcript.filter BusEvent.isAccess

variable {p : Processor β}

/-- Between the fetch of its opcode and the settling of its cost an instruction executes its operation. -/
theorem accesses_of_execute {operation : Operation} {made : List BusEvent}
    (h : p.instruction.mnemonic.operation = some operation)
    (hmade : Traces p.record.fetchOpcode
      (p.record.fetchOpcode.execute operation p.instruction.mode) made) :
    p.accesses = .read p.registers.pc p.fetchOpcode.opcode :: made := by
  let done := p.record.fetchOpcode.execute operation p.instruction.mode
  have hfetch : Traces p.record p.record.fetchOpcode [.read p.registers.pc p.fetchOpcode.opcode] :=
    p.record.traces_fetch
  obtain ⟨events, hevents, hall⟩ :=
    (hfetch.trans hmade).trans (done.traces_settle (done.cost p.instruction))
  have hrecord : (Instruction.decode p.record.fetchOpcode.opcode).mnemonic.operation =
      some operation := h
  have htranscript : p.transcript = events := by
    rw [transcript, step_of_operation hrecord]
    exact hevents
  rw [accesses, htranscript, hall, List.append_nil]
  rfl

/-- What replaces its operand has found it where its mode says, has read it there, and writes it back. -/
theorem accesses_of_stores {operation : Operation}
    (h : p.instruction.mnemonic.operation = some operation) (hstores : operation.stores = true) :
    ∃ before address value result,
      p.instruction.mode.Finds { p.registers with pc := p.registers.pc + 1 }
        (before ++ [.read address value]) address ∧
      p.accesses = .read p.registers.pc p.fetchOpcode.opcode ::
        (before ++ [.read address value, .write address result]) := by
  obtain ⟨reads, htraces, hfinds⟩ :=
    p.record.fetchOpcode.traces_readOperand (locates_of_stores h hstores)
  let found := p.record.fetchOpcode.readOperand p.instruction.mode
  obtain ⟨before, value, rfl⟩ := hfinds.exists_append
  have hwritten : ∃ result, Traces p.record.fetchOpcode
      (p.record.fetchOpcode.execute operation p.instruction.mode)
      (before ++ [.read found.address value] ++ [.write found.address result]) := by
    cases operation with
    | store source => exact ⟨_, htraces.trans (traces_poke _ _ _)⟩
    | modify operation =>
      exact ⟨_, htraces.trans (traces_poke { found with registers := _ } _ _)⟩
    | _ => exact absurd hstores Bool.false_ne_true
  obtain ⟨result, hmade⟩ := hwritten
  refine ⟨before, found.address, value, result, hfinds, ?_⟩
  rw [accesses_of_execute h hmade, List.append_assoc]
  rfl

theorem accesses_writes (p : Processor β) : p.accesses.filterMap BusEvent.write? = p.writes := by
  rw [← transcript_writes, accesses, List.filterMap_filter]
  congr 1
  funext event
  cases event <;> rfl

/-- What does not replace an operand writes what it puts on the stack. -/
theorem writes_of_not_stores {operation : Operation}
    (h : p.instruction.mnemonic.operation = some operation) (hstores : operation.stores = false) :
    p.writes = stacked p.registers.sp (operation.pushed p.fetchOpcode.registers) := by
  rw [writes, h]
  cases operation with
  | store | modify => exact absurd hstores.symm Bool.false_ne_true
  | _ => rfl

theorem length_stacked (sp : UInt8) (bytes : List UInt8) : (stacked sp bytes).length = bytes.length := by
  induction bytes generalizing sp with
  | nil => rfl
  | cons byte rest ih => exact congrArg (· + 1) (ih (sp - 1))

theorem bounds_of_mem_stacked {sp : UInt8} {bytes : List UInt8} {byte : UInt16 × UInt8}
    (hroom : bytes.length ≤ 256) (h : byte ∈ stacked sp bytes) :
    0x100 ≤ byte.1.toNat ∧ byte.1.toNat ≤ 0x1FF := by
  obtain ⟨cell, hcell, -⟩ := mem_stacked hroom h
  have hlt := cell.toNat_lt
  rw [hcell, toNat_stackCell]
  omega

/-- Finding an operand moves the program counter past its bytes. -/
theorem readOperand_pc (p : Processor β) {mode : AddressingMode} (hmode : mode ≠ .indirect) :
    (p.readOperand mode).registers.pc = p.registers.pc + UInt16.ofNat mode.operandBytes := by
  have hone : p.registers.pc + 1 = p.registers.pc + UInt16.ofNat 1 := rfl
  have htwo : p.registers.pc + 1 + 1 = p.registers.pc + UInt16.ofNat 2 := UInt16.add_assoc ..
  cases mode with
  | implied | invalid => exact (UInt16.add_zero _).symm
  | absolute => exact htwo
  | absoluteX | absoluteY => exact (congrArg Registers.pc (readIndexed_registers _ _ _)).trans htwo
  | indirectY => exact (congrArg Registers.pc (readIndexed_registers _ _ _)).trans hone
  | indirect => exact absurd rfl hmode
  | _ => exact hone

/-- Whether an operation can have a mode.  Only a jump goes through a pointer anywhere in memory, and what needs no
operand has no bytes behind its opcode. -/
def fits (operation : Operation) (mode : AddressingMode) : Bool :=
  match operation with
  | .read _ | .store _ | .modify _ => mode != .indirect
  | .internal _ | .push _ | .pull _ => mode == .implied
  | .branch .. => mode == .relative
  | .jump | .call | .leave | .leaveInterrupt | .interrupt => true

theorem fits_of_operation {opcode : UInt8} {operation : Operation}
    (h : (Instruction.decode opcode).mnemonic.operation = some operation) :
    fits operation (Instruction.decode opcode).mode = true := by
  have hall := forall_byte (p := fun opcode ↦ (Instruction.decode opcode).mnemonic.operation.all
    (fits · (Instruction.decode opcode).mode) = true) (by decide +kernel) opcode
  simpa [h] using hall

/-- An instruction that goes on with the next byte has taken its opcode and the operand bytes of its mode. -/
theorem step_pc_of_fallsThrough {operation : Operation}
    (h : p.instruction.mnemonic.operation = some operation)
    (hfalls : p.instruction.mnemonic.fallsThrough p.registers.flags = true) :
    p.step.2.registers.pc =
      p.registers.pc + 1 + UInt16.ofNat p.instruction.mode.operandBytes := by
  have hfits : fits operation p.instruction.mode = true := fits_of_operation h
  have hregisters := (step_of_some h).2
  have hfound (hmode : p.instruction.mode ≠ .indirect) : p.found.registers.pc =
      p.registers.pc + 1 + UInt16.ofNat p.instruction.mode.operandBytes :=
    p.fetchOpcode.readOperand_pc hmode
  have himplied (hmode : p.instruction.mode = .implied) : p.registers.pc + 1 =
      p.registers.pc + 1 + UInt16.ofNat p.instruction.mode.operandBytes := by
    rw [hmode]
    exact (UInt16.add_zero _).symm
  rw [Mnemonic.fallsThrough_eq h] at hfalls
  cases operation with
  | read operation => exact (step_pc_of_read h).trans (hfound (bne_iff_ne.mp hfits))
  | store source => exact (congrArg Registers.pc hregisters).trans (hfound (bne_iff_ne.mp hfits))
  | modify operation => exact (step_pc_of_modify h).trans (hfound (bne_iff_ne.mp hfits))
  | internal operation => exact (step_pc_of_internal h).trans (himplied (beq_iff_eq.mp hfits))
  | push item => exact (congrArg Registers.pc hregisters).trans (himplied (beq_iff_eq.mp hfits))
  | pull item =>
    refine (congrArg Registers.pc hregisters).trans (Eq.trans ?_ (himplied (beq_iff_eq.mp hfits)))
    cases item <;> rfl
  | branch flag on =>
    have hmode : p.instruction.mode = .relative := beq_iff_eq.mp hfits
    have htaken : (p.registers.flags.get flag == on) = false := by simpa using hfalls
    have hleft : p.step.2.registers = (p.fetchOpcode.branch false).registers := by
      rw [hregisters, ← htaken]
      rfl
    have hread : (p.fetchOpcode.readOperand .relative).registers.pc = p.registers.pc + 1 +
        UInt16.ofNat AddressingMode.relative.operandBytes := p.fetchOpcode.readOperand_pc nofun
    rw [hleft, hmode]
    exact hread
  | jump | call | leave | leaveInterrupt | interrupt => exact absurd hfalls Bool.false_ne_true

/-- An opcode without an operation is read, and nothing else happens. -/
theorem step_of_none (h : p.instruction.mnemonic.operation = none) :
    p.step = (.error (.unknownOpcode p.registers.pc p.fetchOpcode.opcode), p.fetchOpcode) ∧
      p.accesses = [.read p.registers.pc p.fetchOpcode.opcode] := by
  have hdecode : (Instruction.decode p.fetchOpcode.opcode).mnemonic.operation = none := h
  have hrecord : (Instruction.decode p.record.fetchOpcode.opcode).mnemonic.operation = none := h
  constructor
  · have hback : p.fetchOpcode.registers.pc - 1 = p.registers.pc := UInt16.add_sub_cancel _ 1
    simp only [step, hdecode, hback]
  · obtain ⟨events, hevents, hall⟩ := p.record.traces_fetch
    have htranscript : p.transcript = events := by
      simp only [transcript, step, hrecord]
      exact hevents
    rw [accesses, htranscript, hall]
    rfl

/-- How long instructions are and what they do on the bus, for every opcode, with any registers and any answers
of the bus.  An opcode that cannot be executed fails with its own address, is all that is read, and leaves all
registers but the program counter and the count of instructions as they were.  Any other does not fail; it goes
on behind the operand bytes of its mode unless it jumps; and what replaces its operand writes once and last, to
the address which its mode gives and which it has read just before, while other instructions write to the stack
or not at all. -/
theorem step_traffic (p : Processor β) :
    let mnemonic := p.instruction.mnemonic
    let mode := p.instruction.mode
    let opcode := p.fetchOpcode.opcode
    let behind := { p.registers with pc := p.registers.pc + 1 }
    (¬ mnemonic.Supported →
      p.step.1 = .error (.unknownOpcode p.registers.pc opcode) ∧
        p.accesses = [.read p.registers.pc opcode] ∧
        p.step.2.registers = behind ∧ p.step.2.retired = p.retired) ∧
    (mnemonic.Supported →
      (∃ cycles, p.step.1 = .ok cycles) ∧
        (mnemonic.fallsThrough p.registers.flags = true →
          p.step.2.registers.pc = behind.pc + UInt16.ofNat mode.operandBytes) ∧
        if mnemonic.writesOperand = true then
          ∃ before address value result,
            mode.Finds behind (before ++ [.read address value]) address ∧
              p.accesses = .read p.registers.pc opcode ::
                (before ++ [.read address value, .write address result])
        else
          let written := p.accesses.filterMap BusEvent.write?
          written.length = mnemonic.stackedBytes ∧
            ∀ byte ∈ written, 0x100 ≤ byte.1.toNat ∧ byte.1.toNat ≤ 0x1FF) := by
  intro mnemonic mode opcode behind
  constructor
  · intro hsupported
    have hnone : mnemonic.operation = none := by
      rwa [Mnemonic.supported_iff, Bool.not_eq_true, Option.isSome_eq_false_iff,
        Option.isNone_iff_eq_none] at hsupported
    obtain ⟨hstep, haccesses⟩ := step_of_none hnone
    rw [hstep]
    exact ⟨rfl, haccesses, rfl, rfl⟩
  · intro hsupported
    obtain ⟨operation, hoperation⟩ :=
      Option.isSome_iff_exists.mp (mnemonic.supported_iff.mp hsupported)
    refine ⟨(step_of_some hoperation).1, step_pc_of_fallsThrough hoperation, ?_⟩
    rw [Mnemonic.writesOperand_eq hoperation]
    split
    · next hstores => exact accesses_of_stores hoperation hstores
    · next hstores =>
      have hbytes := Mnemonic.length_pushed_eq hoperation p.fetchOpcode.registers
      have hroom : (operation.pushed p.fetchOpcode.registers).length ≤ 256 := by
        rw [hbytes]
        cases mnemonic <;> decide
      rw [accesses_writes, writes_of_not_stores hoperation (Bool.eq_false_iff.mpr hstores)]
      exact ⟨(length_stacked _ _).trans hbytes, fun byte hbyte ↦ bounds_of_mem_stacked hroom hbyte⟩

end Processor

end Vcs
