import Vcs.Proofs.Processor.DecimalZero

/-!
# Combined Instructions

Some undocumented instructions do at once what two documented ones do one after the other on the same operand;
two more combine the accumulator with X.  Main statement: on flat memory, in every addressing mode they have,
they leave the registers and memory as the documented instructions do, but for one flag of one of them.  In
decimal mode the increment with subtraction shows its own result in the zero flag, where the subtraction shows
the binary difference.

The documented pair is run by a second processor.  Its code lies elsewhere, and it may reach the operand in
another addressing mode, so memory is compared wherever it was the same before.
-/

namespace Vcs

/-- The operation of a combined instruction, and the two that it stands for.  Either the first replaces its
operand and the second reads what it left there, or the second stays inside the processor. -/
inductive Parts where
  | modify (whole first : ModifyOperation) (second : ReadOperation)
  | read (whole first : ReadOperation) (second : InternalOperation)

namespace Parts

/-- What the one operation makes of the registers. -/
def apply (parts : Parts) (r : Registers) (value : UInt8) : Registers :=
  match parts with
  | modify whole _ _ => (whole.apply r value).2
  | read whole _ _ => whole.apply r value

/-- What the two operations make of them. -/
def expand (parts : Parts) (r : Registers) (value : UInt8) : Registers :=
  match parts with
  | modify _ first second => second.apply (first.apply r value).2 (first.apply r value).1
  | read _ first second => second.apply (first.apply r value)

/-- The one operation. -/
def whole : Parts → Operation
  | modify whole _ _ => .modify whole
  | read whole _ _ => .read whole

/-- The first of the two. -/
def first : Parts → Operation
  | modify _ first _ => .modify first
  | read _ first _ => .read first

/-- The second of the two. -/
def second : Parts → Operation
  | modify _ _ second => .read second
  | read _ _ second => .internal second

/-- Whether the operand is replaced. -/
def replaces : Parts → Bool
  | modify .. => true
  | read .. => false

end Parts

/-- Instructions that do the work of two documented ones. -/
inductive Combined where
  | dcp | isb | slo | rla | lax | asr
  deriving DecidableEq, Repr

namespace Combined

def mnemonic : Combined → Mnemonic
  | dcp => .dcp
  | isb => .isb
  | slo => .slo
  | rla => .rla
  | lax => .lax
  | asr => .asr

/-- The documented instruction whose work is done first. -/
def first : Combined → Mnemonic
  | dcp => .dec
  | isb => .inc
  | slo => .asl
  | rla => .rol
  | lax => .lda
  | asr => .and

/-- The documented instruction whose work is done then. -/
def second : Combined → Mnemonic
  | dcp => .cmp
  | isb => .sbc
  | slo => .ora
  | rla => .and
  | lax => .tax
  | asr => .lsrA

def parts : Combined → Parts
  | dcp => .modify .decrementCompare .decrement .compareA
  | isb => .modify .incrementSubtract .increment .subtract
  | slo => .modify .shiftLeftOr .shiftLeft .or
  | rla => .modify .rotateLeftAnd .rotateLeft .and
  | lax => .read .loadBoth .loadA .transferAX
  | asr => .read .andShiftRight .and (.accumulate .shiftRight)

theorem mnemonic_operation (kind : Combined) : kind.mnemonic.operation = some kind.parts.whole := by
  cases kind <;> rfl

theorem first_operation (kind : Combined) : kind.first.operation = some kind.parts.first := by
  cases kind <;> rfl

theorem second_operation (kind : Combined) : kind.second.operation = some kind.parts.second := by
  cases kind <;> rfl

theorem second_reads {kind : Combined} {whole first : ModifyOperation} {second : ReadOperation}
    (h : kind.parts = .modify whole first second) : second ≠ .ignore := by
  cases kind <;> cases h <;> decide

/-- The one instruction and the first of the two replace the operand by the same byte. -/
theorem same_byte {kind : Combined} {whole first : ModifyOperation} {second : ReadOperation}
    (h : kind.parts = .modify whole first second) (r : Registers) (value : UInt8) :
    (whole.apply r value).1 = (first.apply r value).1 := by
  cases kind <;> cases h <;> rfl

theorem asr_apply (r : Registers) (value : UInt8) : asr.parts.apply r value = asr.parts.expand r value := by
  change r.andShiftRight value = _
  rw [Registers.andShiftRight, UInt8.and_comm value r.a]
  rfl

/-- The one instruction against the two: no more than the zero flag tells them apart. -/
theorem apply_expand (kind : Combined) (r : Registers) (value : UInt8) :
    kind.parts.expand r value = { kind.parts.apply r value with
      flags := { (kind.parts.apply r value).flags with
        notZ := (kind.parts.expand r value).flags.notZ } } := by
  cases kind with
  | isb =>
    rcases r with ⟨a, x, y, sp, pc, ⟨n, v, b, _ | _, i, notZ, c⟩⟩ <;> rfl
  | asr => rw [asr_apply]
  | _ => rfl

/-- When the zero flag is the same. -/
theorem apply_zero_iff (kind : Combined) (r : Registers) (value : UInt8) :
    (kind.parts.apply r value).flags.zero = (kind.parts.expand r value).flags.zero ↔
      (kind = .isb → r.flags.d = true → ((kind.parts.apply r value).a = 0 ↔
        ((r.a.toNat : Int) - (value + 1).toNat + (r.carry - 1)) % 256 = 0)) := by
  cases kind with
  | isb =>
    rcases hmode : r.flags.d with _ | _
    · refine iff_of_true ?_ nofun
      rcases r with ⟨a, x, y, sp, pc, ⟨n, v, b, d, i, notZ, c⟩⟩
      subst hmode
      rfl
    · have hpair : (isb.parts.expand r value).flags.zero = true ↔
          ((r.a.toNat : Int) - (value + 1).toNat + (r.carry - 1)) % 256 = 0 :=
        Carrying.difference_zero _ { r with flags := r.flags.withResult (value + 1) }
      have hown : (isb.parts.apply r value).flags.zero = true ↔ (isb.parts.apply r value).a = 0 := by
        change (!((isb.parts.apply r value).a != 0)) = true ↔ _
        rw [Bool.not_eq_true', bne_eq_false_iff_eq]
      rw [Bool.eq_iff_iff, hpair, hown]
      exact ⟨fun h _ _ ↦ h, fun h ↦ h rfl rfl⟩
  | asr => exact iff_of_true (by rw [asr_apply]) nofun
  | _ => exact iff_of_true rfl nofun

end Combined

/-- One processor is about to run a combined instruction, and another, which differs in its code alone, is about
to run the two that it stands for on the same operand.  Where the operand is replaced they find it at the same
address. -/
structure Combined.Expands (kind : Combined) (p q : Processor FlatMemory) : Prop where
  size : q.bus.bytes.size = p.bus.bytes.size
  whole : p.instruction.mnemonic = kind.mnemonic
  first : q.instruction.mnemonic = kind.first
  second : q.step.2.instruction.mnemonic = kind.second
  registers : q.registers = { p.registers with pc := q.registers.pc }
  operand : q.operand = p.operand
  address : kind.parts.replaces = true →
    q.operandAddress = p.operandAddress ∧ q.step.2.operandAddress = p.operandAddress

/-! ## A pair for every instruction -/

/-- Opcodes of the documented pair; the first of them has its operand at an absolute address. -/
def Combined.opcodes : Combined → UInt8 × UInt8
  | .dcp => (0xCE, 0xCD)
  | .isb => (0xEE, 0xED)
  | .slo => (0x0E, 0x0D)
  | .rla => (0x2E, 0x2D)
  | .lax => (0xAD, 0xAA)
  | .asr => (0x2D, 0x4A)

theorem Combined.decode_first (kind : Combined) :
    (Instruction.decode kind.opcodes.1).mnemonic = kind.first ∧
      (Instruction.decode kind.opcodes.1).mode = .absolute := by
  cases kind <;> decide +kernel

theorem Combined.decode_second (kind : Combined) :
    (Instruction.decode kind.opcodes.2).mnemonic = kind.second ∧
      (kind.parts.replaces = true → (Instruction.decode kind.opcodes.2).mode = .absolute) := by
  cases kind <;> decide +kernel

/-- The code of the pair, right behind its operand. -/
def Combined.code (kind : Combined) (operand : UInt16) : List (UInt16 × UInt8) :=
  [(operand + 1, kind.opcodes.1), (operand + 2, lowByte operand), (operand + 3, highByte operand),
    (operand + 4, kind.opcodes.2), (operand + 5, lowByte operand), (operand + 6, highByte operand)]

theorem Combined.nodup_code (kind : Combined) (operand : UInt16) :
    (operand :: (kind.code operand).map Prod.fst).Nodup := by
  simp [code]

theorem Combined.locates {kind : Combined} {p : Processor FlatMemory}
    (h : p.instruction.mnemonic = kind.mnemonic) : p.instruction.mode.locates = true := by
  have hoperation := kind.mnemonic_operation
  rw [← h] at hoperation
  cases kind with
  | lax | asr => exact locates_of_read hoperation (by decide)
  | _ => exact locates_of_stores hoperation rfl

/-- The first of the two finds its operand, goes on to the second and leaves all other addresses alone. -/
theorem Combined.step_first {kind : Combined} {q : Processor FlatMemory}
    (hmnemonic : q.instruction.mnemonic = kind.first) (hmode : q.instruction.mode = .absolute) :
    q.step.2.registers.pc = q.registers.pc + 1 + 1 + 1 ∧
      ∀ address ≠ q.operandAddress, q.step.2.bus.get address = q.bus.get address := by
  have hoperation : q.instruction.mnemonic.operation = some kind.parts.first := by
    rw [hmnemonic, kind.first_operation]
  rw [← Processor.found_pc_of_absolute hmode]
  cases hparts : kind.parts with
  | modify whole first second =>
    rw [hparts] at hoperation
    refine ⟨Processor.step_pc_of_modify hoperation, fun address hother ↦ ?_⟩
    rw [Processor.step_get, Processor.writes_of_modify hoperation]
    exact FlatMemory.get_put_of_ne hother.symm _ _
  | read whole first second =>
    rw [hparts] at hoperation
    refine ⟨Processor.step_pc_of_read hoperation, fun address _ ↦ ?_⟩
    rw [Processor.step_get, Processor.writes_of_read hoperation]
    rfl

/-- The pair at an absolute address. -/
theorem Combined.expands_of_code {kind : Combined} {p q : Processor FlatMemory}
    (hwhole : p.instruction.mnemonic = kind.mnemonic) (hsize : q.bus.bytes.size = p.bus.bytes.size)
    (hregisters : q.registers = { p.registers with pc := p.operandAddress + 1 })
    (hcode : ∀ byte ∈ kind.code p.operandAddress, q.bus.get byte.1 = byte.2)
    (hspared : q.bus.get p.operandAddress = p.bus.get p.operandAddress) : kind.Expands p q := by
  have hclear := (List.nodup_cons.mp (kind.nodup_code p.operandAddress)).1
  have hpc : q.registers.pc = p.operandAddress + 1 := congrArg Registers.pc hregisters
  have hoffset (first second : UInt16) :
      p.operandAddress + first + second = p.operandAddress + (first + second) := UInt16.add_assoc ..
  have hbytes := hcode
  simp only [code, List.forall_mem_cons] at hbytes
  obtain ⟨hopcode, hlow, hhigh, -⟩ := hbytes
  obtain ⟨hfirst, hmode⟩ := kind.decode_first
  have hinstruction : q.instruction = Instruction.decode kind.opcodes.1 := by
    rw [Processor.instruction_eq, hpc, hopcode]
  rw [← hinstruction] at hfirst hmode
  have haddress : q.operandAddress = p.operandAddress := by
    rw [q.operandAddress_of_absolute hmode, hpc, hoffset, hoffset]
    exact (congrArg₂ wordOf hlow hhigh).trans (wordOf_lowByte_highByte _)
  obtain ⟨hnextPc, hothers⟩ := step_first hfirst hmode
  rw [hpc, hoffset, hoffset, hoffset] at hnextPc
  -- The first instruction writes nothing but the operand, so the second is still there.
  have hkept : ∀ byte ∈ kind.code p.operandAddress, q.step.2.bus.get byte.1 = byte.2 := by
    intro byte hbyte
    rw [hothers byte.1 fun hsame ↦
      hclear (List.mem_map.mpr ⟨byte, hbyte, hsame.trans haddress⟩)]
    exact hcode byte hbyte
  simp only [code, List.forall_mem_cons] at hkept
  obtain ⟨-, -, -, hnext, hnextLow, hnextHigh, -⟩ := hkept
  obtain ⟨hsecond, hnextMode⟩ := kind.decode_second
  have hnextInstruction : q.step.2.instruction = Instruction.decode kind.opcodes.2 := by
    rw [Processor.instruction_eq, hnextPc]
    exact congrArg Instruction.decode hnext
  rw [← hnextInstruction] at hsecond hnextMode
  refine ⟨hsize, hwhole, hfirst, hsecond, ?_, ?_, fun hreplaces ↦ ⟨haddress, ?_⟩⟩
  · rw [hpc, hregisters]
  · have hlocates : q.instruction.mode.locates = true := by rw [hmode]; rfl
    rw [q.operand_eq hlocates, haddress, hspared, p.operand_eq (locates hwhole)]
  · rw [q.step.2.operandAddress_of_absolute (hnextMode hreplaces), hnextPc, hoffset, hoffset]
    exact (congrArg₂ wordOf hnextLow hnextHigh).trans (wordOf_lowByte_highByte _)

/-- On a bus of 64 KiB every combined instruction can be compared with its pair. -/
theorem Combined.exists_expands {kind : Combined} {p : Processor FlatMemory}
    (h : p.instruction.mnemonic = kind.mnemonic) (hsize : p.bus.bytes.size = 65536) :
    ∃ q, kind.Expands p q := by
  obtain ⟨hclear, hdistinct⟩ := List.nodup_cons.mp (kind.nodup_code p.operandAddress)
  refine ⟨{ p with
    registers := { p.registers with pc := p.operandAddress + 1 }
    bus := p.bus.putAll (kind.code p.operandAddress) }, ?_⟩
  refine Combined.expands_of_code h (FlatMemory.size_putAll _ _) rfl ?_ ?_
  · refine FlatMemory.get_putAll_of_mem hdistinct fun byte _ ↦ ?_
    rw [hsize]
    exact byte.1.toNat_lt
  · exact FlatMemory.get_putAll_of_notMem
      (fun byte hbyte hsame ↦ hclear (List.mem_map.mpr ⟨byte, hbyte, hsame⟩)) p.bus

namespace Processor

section

variable {kind : Combined} {p q : Processor FlatMemory}

theorem step_combined (h : p.instruction.mnemonic = kind.mnemonic) :
    (∃ cycles, p.step.1 = .ok cycles) ∧
      p.step.2.registers =
        { kind.parts.apply p.registers p.operand with pc := p.step.2.registers.pc } := by
  have hoperation : p.instruction.mnemonic.operation = some kind.parts.whole := by
    rw [h, kind.mnemonic_operation]
  refine ⟨(step_of_some hoperation).1, ?_⟩
  cases hparts : kind.parts with
  | modify whole first second =>
    rw [hparts] at hoperation
    exact step_registers_of_modify hoperation
  | read whole first second =>
    rw [hparts] at hoperation
    exact step_registers_of_read hoperation

/-- The pair leaves the registers that it is to leave, and memory as the one instruction has written it. -/
theorem step_expansion (h : kind.Expands p q) (hinside : p.operandAddress.toNat < p.bus.bytes.size) :
    ((∃ cycles, q.step.1 = .ok cycles) ∧ ∃ cycles, q.step.2.step.1 = .ok cycles) ∧
      q.step.2.step.2.registers =
        { kind.parts.expand p.registers p.operand with pc := q.step.2.step.2.registers.pc } ∧
      ∀ address, q.step.2.step.2.bus.get address = (q.bus.putAll p.writes).get address := by
  have hwhole : p.instruction.mnemonic.operation = some kind.parts.whole := by
    rw [h.whole, kind.mnemonic_operation]
  have hfirst : q.instruction.mnemonic.operation = some kind.parts.first := by
    rw [h.first, kind.first_operation]
  have hsecond : q.step.2.instruction.mnemonic.operation = some kind.parts.second := by
    rw [h.second, kind.second_operation]
  refine ⟨⟨(step_of_some hfirst).1, (step_of_some hsecond).1⟩, ?_⟩
  have haddress := h.address
  cases hparts : kind.parts with
  | modify whole first second =>
    rw [hparts] at hwhole hfirst hsecond haddress
    obtain ⟨hsame, hbehind⟩ := haddress rfl
    let byte := (first.apply p.registers p.operand).1
    have happly : first.apply q.registers q.operand =
        (byte, { (first.apply p.registers p.operand).2 with pc := q.registers.pc }) := by
      rw [h.operand, h.registers, ModifyOperation.apply_pc]
    have hwrites : q.writes = [(p.operandAddress, byte)] := by
      rw [writes_of_modify hfirst, hsame, happly]
    have hwritten : p.writes = [(p.operandAddress, byte)] := by
      rw [writes_of_modify hwhole, Combined.same_byte hparts]
    -- The second instruction finds what the first has left.
    have hoperand : q.step.2.operand = byte := by
      have hmode := locates_of_read hsecond (Combined.second_reads hparts)
      rw [← h.size] at hinside
      rw [operand_eq _ hmode, hbehind, step_get, hwrites]
      exact FlatMemory.get_put_self hinside byte
    have hbetween : q.step.2.registers =
        { (first.apply p.registers p.operand).2 with pc := q.step.2.registers.pc } :=
      (step_registers_of_modify hfirst).trans (by rw [happly])
    have hlast := step_registers_of_read hsecond
    rw [hoperand, hbetween, ReadOperation.apply_pc] at hlast
    refine ⟨hlast, fun address ↦ ?_⟩
    rw [step_get, writes_of_read hsecond]
    change q.step.2.bus.get address = _
    rw [step_get, hwrites, hwritten]
  | read whole first second =>
    rw [hparts] at hwhole hfirst hsecond
    have hbetween : q.step.2.registers =
        { first.apply p.registers p.operand with pc := q.step.2.registers.pc } :=
      (step_registers_of_read hfirst).trans (by rw [h.operand, h.registers, ReadOperation.apply_pc])
    have hlast := step_registers_of_internal hsecond
    rw [hbetween, InternalOperation.apply_pc] at hlast
    refine ⟨hlast, fun address ↦ ?_⟩
    rw [step_get, writes_of_internal hsecond]
    change q.step.2.bus.get address = _
    rw [step_get, writes_of_read hfirst, writes_of_read hwhole]

end

section

variable {p : Processor FlatMemory}

/-- The difference is zero if and only if the bytes are the same, so its flags are those of a comparison. -/
theorem subtractFromMasked_eq_compare (r : Registers) (value : UInt8) :
    r.subtractFromMasked value =
      { r.compare (r.a &&& r.x) value with x := (r.a &&& r.x) - value } := by
  have hzero : ((r.a &&& r.x) - value != 0) = (r.a &&& r.x != value) := by
    rw [Bool.eq_iff_iff, bne_iff_ne, bne_iff_ne]
    grind
  rw [Registers.compare, ← hzero]
  rfl

theorem step_sax (h : p.instruction.mnemonic = .sax) (hinside : p.operandAddress.toNat < p.bus.bytes.size) :
    (∃ cycles, p.step.1 = .ok cycles) ∧
      p.step.2.registers = { p.registers with pc := p.step.2.registers.pc } ∧
      p.step.2.bus.get p.operandAddress = p.registers.a &&& p.registers.x ∧
      ∀ address ≠ p.operandAddress, p.step.2.bus.get address = p.bus.get address := by
  have hoperation : p.instruction.mnemonic.operation = some (.store .masked) := by rw [h]; rfl
  refine ⟨(step_of_some hoperation).1, step_registers_of_store hoperation, ?_, fun address hother ↦ ?_⟩
  · rw [step_get, writes_of_store hoperation]
    exact FlatMemory.get_put_self hinside _
  · rw [step_get, writes_of_store hoperation]
    exact FlatMemory.get_put_of_ne hother.symm _ _

theorem step_sbx (h : p.instruction.mnemonic = .sbx) :
    let masked := p.registers.a &&& p.registers.x
    (∃ cycles, p.step.1 = .ok cycles) ∧
      p.step.2.registers =
        { p.registers.compare masked p.operand with
          x := masked - p.operand
          pc := p.step.2.registers.pc } ∧
      ∀ address, p.step.2.bus.get address = p.bus.get address := by
  have hoperation : p.instruction.mnemonic.operation = some (.read .subtractFromMasked) := by rw [h]; rfl
  refine ⟨(step_of_some hoperation).1, ?_, fun address ↦ ?_⟩
  · have happly := step_registers_of_read hoperation
    rw [ReadOperation.apply, subtractFromMasked_eq_compare] at happly
    exact happly
  · rw [step_get, writes_of_read hoperation]
    rfl

/-- Every combined instruction, on flat memory and in every addressing mode, beside what it is made of.  There is
a pair to compare it with, and any such pair leaves the same registers but for the program counter, and the same
memory, except that the zero flag of the increment with subtraction need not be the same in decimal mode. -/
theorem combined_instructions (hsize : p.bus.bytes.size = 65536) :
    let after := p.step.2
    let masked := p.registers.a &&& p.registers.x
    (∀ kind : Combined, p.instruction.mnemonic = kind.mnemonic →
      (∃ cycles, p.step.1 = .ok cycles) ∧ (∃ q, kind.Expands p q) ∧
      ∀ q, kind.Expands p q →
        let pair := q.step.2.step.2
        (∃ cycles, q.step.1 = .ok cycles) ∧ (∃ cycles, q.step.2.step.1 = .ok cycles) ∧
        (∀ address, q.bus.get address = p.bus.get address →
          pair.bus.get address = after.bus.get address) ∧
        pair.registers = { after.registers with
          pc := pair.registers.pc
          flags := { after.registers.flags with notZ := pair.registers.flags.notZ } } ∧
        (after.registers.flags.zero = pair.registers.flags.zero ↔
          (kind = .isb → p.registers.flags.d = true → (after.registers.a = 0 ↔
            ((p.registers.a.toNat : Int) - (p.operand + 1).toNat + (p.registers.carry - 1)) % 256 =
              0)))) ∧
    (p.instruction.mnemonic = .sax →
      (∃ cycles, p.step.1 = .ok cycles) ∧
      after.registers = { p.registers with pc := after.registers.pc } ∧
      after.bus.get p.operandAddress = masked ∧
      ∀ address ≠ p.operandAddress, after.bus.get address = p.bus.get address) ∧
    (p.instruction.mnemonic = .sbx →
      (∃ cycles, p.step.1 = .ok cycles) ∧
      after.registers = { p.registers.compare masked p.operand with
        x := masked - p.operand
        pc := after.registers.pc } ∧
      ∀ address, after.bus.get address = p.bus.get address) := by
  have hinside : p.operandAddress.toNat < p.bus.bytes.size := by
    rw [hsize]
    exact p.operandAddress.toNat_lt
  refine ⟨fun kind hkind ↦ ?_, fun h ↦ step_sax h hinside, step_sbx⟩
  obtain ⟨hdone, hregisters⟩ := step_combined hkind
  refine ⟨hdone, Combined.exists_expands hkind hsize, fun q h ↦ ?_⟩
  obtain ⟨⟨hfirst, hsecond⟩, hpair, hmemory⟩ := step_expansion h hinside
  have hexpand := kind.apply_expand p.registers p.operand
  have hzero := kind.apply_zero_iff p.registers p.operand
  refine ⟨hfirst, hsecond, fun address hsame ↦ ?_, ?_, ?_⟩
  · rw [hmemory, step_get]
    exact FlatMemory.get_putAll_eq_of_get_eq h.size hsame p.writes
  · have hshown : q.step.2.step.2.registers.flags = (kind.parts.expand p.registers p.operand).flags :=
      (congrArg Registers.flags hpair).trans rfl
    rw [hshown, hregisters]
    exact hpair.trans
      (congrArg (fun r : Registers ↦ { r with pc := q.step.2.step.2.registers.pc }) hexpand)
  · rw [hpair, hregisters]
    exact hzero

end

/-! ## One operand -/

section

/-- Blank memory but for an instruction with an absolute operand and for the operand, which is eight. -/
def absoluteMemory (opcode : UInt8) : FlatMemory :=
  FlatMemory.blank.putAll [(0, opcode), (1, 0x05), (2, 0x00), (5, 0x08)]

variable {p : Processor FlatMemory} {opcode : UInt8}

theorem size_absoluteMemory : (absoluteMemory opcode).bytes.size = 65536 := by
  rw [absoluteMemory, FlatMemory.size_putAll, FlatMemory.size_blank]

theorem absoluteMemory_operand (hbus : p.bus = absoluteMemory opcode) (hpc : p.registers.pc = 0)
    (hmode : (Instruction.decode opcode).mode = .absolute) :
    p.instruction = Instruction.decode opcode ∧ p.operand = 8 := by
  have hbytes : ∀ byte ∈ [((0 : UInt16), opcode), (1, 0x05), (2, 0x00), (5, 0x08)],
      p.bus.get byte.1 = byte.2 := by
    rw [hbus]
    refine FlatMemory.get_putAll_of_mem (by simp) fun byte _ ↦ ?_
    rw [FlatMemory.size_blank]
    exact byte.1.toNat_lt
  simp only [List.forall_mem_cons] at hbytes
  obtain ⟨hopcode, hlow, hhigh, hoperand, -⟩ := hbytes
  have hinstruction : p.instruction = Instruction.decode opcode := by
    rw [instruction_eq, hpc]
    exact congrArg Instruction.decode hopcode
  rw [← hinstruction] at hmode
  have haddress : p.operandAddress = 5 := by
    rw [operandAddress_of_absolute p hmode, hpc]
    exact (congrArg₂ wordOf hlow hhigh).trans (by decide)
  refine ⟨hinstruction, ?_⟩
  rw [operand_eq p (by rw [hmode]; rfl), haddress]
  exact hoperand

/-- A shift joined to the accumulator: eight is doubled, and the one of the accumulator is added to it. -/
theorem combined_instructions_of_slo :
    let p : Processor FlatMemory := { registers := { a := 1 }, bus := absoluteMemory 0x0F }
    ∃ q, Combined.slo.Expands p q ∧ p.step.2.registers.a = 0x11 ∧
      q.step.2.step.2.registers.a = 0x11 := by
  intro p
  obtain ⟨hinstruction, hoperand⟩ := absoluteMemory_operand (p := p) rfl rfl (by decide +kernel)
  have hmnemonic : p.instruction.mnemonic = Combined.slo.mnemonic := by
    rw [hinstruction]
    decide +kernel
  obtain ⟨-, ⟨q, hexpands⟩, hpairs⟩ := (combined_instructions (p := p) size_absoluteMemory).1 .slo hmnemonic
  obtain ⟨-, -, -, hregisters, -⟩ := hpairs q hexpands
  -- Stated of any registers, so that the steps of this processor are not run to compare them.
  have hsame {r s : Registers} {pc : UInt16} {flags : Flags} (h : r = { s with pc := pc, flags := flags }) :
      r.a = s.a := by rw [h]
  have hresult : p.step.2.registers.a = 0x11 := by
    rw [(step_combined hmnemonic).2, hoperand]
    change (Combined.slo.parts.apply { a := 1 } 8).a = 0x11
    decide +kernel
  exact ⟨q, hexpands, hresult, (hsame hregisters).trans hresult⟩

/-- Ten less nine and the borrow is nothing in decimal mode, but sixteen less nine and the borrow is not.  The
one instruction sets the zero flag and the pair clears it. -/
theorem combined_zero_differs :
    let p : Processor FlatMemory :=
      { registers := { a := 0x10, flags := { d := true } }, bus := absoluteMemory 0xEF }
    ∃ q, Combined.isb.Expands p q ∧ p.step.2.registers.flags.zero = true ∧
      q.step.2.step.2.registers.flags.zero = false := by
  intro p
  obtain ⟨hinstruction, hoperand⟩ := absoluteMemory_operand (p := p) rfl rfl (by decide +kernel)
  have hmnemonic : p.instruction.mnemonic = Combined.isb.mnemonic := by
    rw [hinstruction]
    decide +kernel
  obtain ⟨q, hexpands⟩ := Combined.exists_expands hmnemonic size_absoluteMemory
  have hinside : p.operandAddress.toNat < p.bus.bytes.size := by
    rw [show p.bus.bytes.size = 65536 from size_absoluteMemory]
    exact p.operandAddress.toNat_lt
  refine ⟨q, hexpands, ?_, ?_⟩
  · rw [(step_combined hmnemonic).2, hoperand]
    change (Combined.isb.parts.apply { a := 0x10, flags := { d := true } } 8).flags.zero = true
    decide +kernel
  · rw [(step_expansion hexpands hinside).2.1, hoperand]
    change (Combined.isb.parts.expand { a := 0x10, flags := { d := true } } 8).flags.zero = false
    decide +kernel

end

end Processor

end Vcs
