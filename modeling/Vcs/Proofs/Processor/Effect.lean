import Vcs.Processor.FlatMemory
import Vcs.Proofs.Processor.Replay

/-!
# The Effect of an Instruction

What the next instruction is, which byte it finds as its operand and at which address, what it leaves in the
registers and which bytes it writes.  On any bus the operand is all that the bus has to do with the registers:
but for the program counter they are what the operation makes of them and of that byte.  On flat memory the
operand is the byte at its address, and behind an instruction memory holds what it held before and the bytes
that were written.
-/

namespace Vcs

/-- The byte that an event writes, and where. -/
def BusEvent.write? : BusEvent → Option (UInt16 × UInt8)
  | write address value => some (address, value)
  | elapse _ | read .. => none

/-- Where on the stack a byte goes. -/
def stackCell (sp : UInt8) : UInt16 :=
  0x0100 ||| sp.toUInt16

/-- Bytes put on the stack one after another, each with the address where it goes. -/
def stacked (sp : UInt8) : List UInt8 → List (UInt16 × UInt8)
  | [] => []
  | byte :: rest => (stackCell sp, byte) :: stacked (sp - 1) rest

/-- The bytes that an operation puts on the stack, the program counter being behind its opcode. -/
def Operation.pushed (operation : Operation) (r : Registers) : List UInt8 :=
  match operation with
  | push item => [item.value r]
  | call => [highByte (r.pc + 1), lowByte (r.pc + 1)]
  | interrupt => [highByte (r.pc + 1), lowByte (r.pc + 1), { r.flags with b := true }.toByte]
  | _ => []

theorem ReadOperation.apply_pc (operation : ReadOperation) (r : Registers) (pc : UInt16)
    (value : UInt8) :
    operation.apply { r with pc := pc } value = { operation.apply r value with pc := pc } := by
  cases operation with
  | add =>
    simp only [apply, Registers.add]
    split <;> rfl
  | subtract =>
    simp only [apply, Registers.subtract]
    split <;> rfl
  | _ => rfl

theorem ModifyOperation.apply_pc (operation : ModifyOperation) (r : Registers) (pc : UInt16)
    (value : UInt8) :
    operation.apply { r with pc := pc } value =
      ((operation.apply r value).1, { (operation.apply r value).2 with pc := pc }) := by
  cases operation with
  | incrementSubtract =>
    simp only [apply, Registers.incrementSubtract, Registers.subtractIncremented]
    split <;> rfl
  | _ => rfl

theorem InternalOperation.apply_pc (operation : InternalOperation) (r : Registers) (pc : UInt16) :
    operation.apply { r with pc := pc } = { operation.apply r with pc := pc } := by
  cases operation with
  | accumulate modify =>
    simp only [apply, ModifyOperation.apply_pc]
  | _ => rfl

namespace Processor

variable {β : Type} [Bus β]

section

variable (p : Processor β)

/-- The instruction that the program counter is at. -/
def instruction : Instruction :=
  Instruction.decode p.fetchOpcode.opcode

/-- The processor once it has found the operand of the next instruction. -/
def found : Processor β :=
  p.fetchOpcode.readOperand p.instruction.mode

/-- The byte that the next instruction finds as its operand. -/
def operand : UInt8 :=
  p.found.latch

/-- The address at which it finds its operand. -/
def operandAddress : UInt16 :=
  p.found.address

/-- The bytes that an operation writes, its opcode having been fetched, each with its address. -/
def written (operation : Operation) (mode : AddressingMode) : List (UInt16 × UInt8) :=
  let found := p.readOperand mode
  match operation with
  | .store source => [(found.address, source.value found.registers)]
  | .modify operation => [(found.address, (operation.apply found.registers found.latch).1)]
  | _ => stacked p.registers.sp (operation.pushed p.registers)

/-- The bytes that the next instruction writes, each with its address. -/
def writes : List (UInt16 × UInt8) :=
  match p.instruction.mnemonic.operation with
  | some operation => p.fetchOpcode.written operation p.instruction.mode
  | none => []

end

theorem fetchOpcode_registers (p : Processor β) :
    p.fetchOpcode.registers = { p.registers with pc := p.registers.pc + 1 } := rfl

theorem readIndexed_registers (p : Processor β) (base : UInt16) (index : UInt8) :
    (p.readIndexed base index).registers = p.registers := by
  unfold readIndexed
  split <;> rfl

/-- Finding an operand moves the program counter and leaves the other registers alone. -/
theorem readOperand_registers (p : Processor β) (mode : AddressingMode) :
    (p.readOperand mode).registers =
      { p.registers with pc := (p.readOperand mode).registers.pc } := by
  cases mode with
  | absoluteX | absoluteY | indirectY =>
    simp only [readOperand, readIndexed_registers]
    rfl
  | _ => rfl

theorem found_registers (p : Processor β) :
    p.found.registers = { p.registers with pc := p.found.registers.pc } :=
  p.fetchOpcode.readOperand_registers p.instruction.mode

theorem settle_registers (p : Processor β) (cost : Nat) : (p.settle cost).registers = p.registers := by
  unfold settle
  dsimp only
  split <;> rfl

section

variable {p : Processor β}

theorem step_of_some {operation : Operation}
    (h : p.instruction.mnemonic.operation = some operation) :
    (∃ cycles, p.step.1 = .ok cycles) ∧
      p.step.2.registers = (p.fetchOpcode.execute operation p.instruction.mode).registers := by
  rw [step_of_operation h]
  exact ⟨⟨_, rfl⟩, settle_registers _ _⟩

/-- The registers that a reading instruction finds, but for the program counter, and what it makes of them. -/
theorem step_registers_of_read {operation : ReadOperation}
    (h : p.instruction.mnemonic.operation = some (.read operation)) :
    p.step.2.registers =
      { operation.apply p.registers p.operand with pc := p.step.2.registers.pc } := by
  have hstep := (step_of_some h).2
  have happly : p.step.2.registers = operation.apply p.found.registers p.operand := hstep
  rw [happly, found_registers, ReadOperation.apply_pc]

theorem step_registers_of_internal {operation : InternalOperation}
    (h : p.instruction.mnemonic.operation = some (.internal operation)) :
    p.step.2.registers =
      { operation.apply p.registers with pc := p.step.2.registers.pc } := by
  have happly : p.step.2.registers = operation.apply p.fetchOpcode.registers := (step_of_some h).2
  rw [happly, fetchOpcode_registers, InternalOperation.apply_pc]

theorem step_registers_of_modify {operation : ModifyOperation}
    (h : p.instruction.mnemonic.operation = some (.modify operation)) :
    p.step.2.registers =
      { (operation.apply p.registers p.operand).2 with pc := p.step.2.registers.pc } := by
  have happly : p.step.2.registers = (operation.apply p.found.registers p.operand).2 :=
    (step_of_some h).2
  rw [happly, found_registers, ModifyOperation.apply_pc]

theorem writes_of_read {operation : ReadOperation}
    (h : p.instruction.mnemonic.operation = some (.read operation)) : p.writes = [] := by
  rw [writes, h]
  rfl

theorem writes_of_internal {operation : InternalOperation}
    (h : p.instruction.mnemonic.operation = some (.internal operation)) : p.writes = [] := by
  rw [writes, h]
  rfl

theorem writes_of_modify {operation : ModifyOperation}
    (h : p.instruction.mnemonic.operation = some (.modify operation)) :
    p.writes = [(p.operandAddress, (operation.apply p.registers p.operand).1)] := by
  rw [writes, h]
  change [(p.operandAddress, (operation.apply p.found.registers p.operand).1)] = _
  rw [found_registers, ModifyOperation.apply_pc]

theorem writes_of_store {source : StoreSource}
    (h : p.instruction.mnemonic.operation = some (.store source)) :
    p.writes = [(p.operandAddress, source.value p.registers)] := by
  rw [writes, h]
  change [(p.operandAddress, source.value p.found.registers)] = _
  rw [found_registers]
  cases source <;> rfl

theorem step_registers_of_store {source : StoreSource}
    (h : p.instruction.mnemonic.operation = some (.store source)) :
    p.step.2.registers = { p.registers with pc := p.step.2.registers.pc } := by
  have hfound : p.step.2.registers = p.found.registers := (step_of_some h).2
  rw [hfound]
  exact p.found_registers

theorem step_pc_of_read {operation : ReadOperation}
    (h : p.instruction.mnemonic.operation = some (.read operation)) :
    p.step.2.registers.pc = p.found.registers.pc := by
  have happly : p.step.2.registers = operation.apply p.found.registers p.operand := (step_of_some h).2
  rw [happly]
  exact (congrArg Registers.pc
    (operation.apply_pc p.found.registers p.found.registers.pc p.operand)).trans rfl

theorem step_pc_of_modify {operation : ModifyOperation}
    (h : p.instruction.mnemonic.operation = some (.modify operation)) :
    p.step.2.registers.pc = p.found.registers.pc := by
  have happly : p.step.2.registers = (operation.apply p.found.registers p.operand).2 :=
    (step_of_some h).2
  rw [happly]
  exact congrArg (fun result ↦ result.2.pc)
    (operation.apply_pc p.found.registers p.found.registers.pc p.operand)

theorem step_pc_of_internal {operation : InternalOperation}
    (h : p.instruction.mnemonic.operation = some (.internal operation)) :
    p.step.2.registers.pc = p.registers.pc + 1 := by
  have happly : p.step.2.registers = operation.apply { p.registers with pc := p.registers.pc + 1 } :=
    (step_of_some h).2
  rw [happly, InternalOperation.apply_pc]

theorem found_pc_of_immediate (h : p.instruction.mode = .immediate) :
    p.found.registers.pc = p.registers.pc + 1 + 1 := by
  rw [found, h]
  rfl

theorem found_pc_of_absolute (h : p.instruction.mode = .absolute) :
    p.found.registers.pc = p.registers.pc + 1 + 1 + 1 := by
  rw [found, h]
  rfl

end

/-- On its way from `p` to `q` the processor writes these bytes, in this order. -/
def Stores {β : Type} (p q : Processor (Recorder β)) (bytes : List (UInt16 × UInt8)) : Prop :=
  ∃ events, q.bus.events = p.bus.events ++ events ∧ events.filterMap BusEvent.write? = bytes

namespace Stores

variable {p q r : Processor (Recorder β)} {first second : List (UInt16 × UInt8)}

omit [Bus β] in
theorem trans (hfirst : Stores p q first) (hsecond : Stores q r second) :
    Stores p r (first ++ second) := by
  obtain ⟨before, hbefore, rfl⟩ := hfirst
  obtain ⟨after, hafter, rfl⟩ := hsecond
  exact ⟨before ++ after, by rw [hafter, hbefore, List.append_assoc], List.filterMap_append⟩

omit [Bus β] in
theorem of_emits (h : Emits false p q) : Stores p q [] := by
  obtain ⟨events, hevents, hreads⟩ := h
  refine ⟨events, hevents, List.filterMap_eq_nil_iff.mpr ?_⟩
  intro event hmem
  cases event with
  | write address value => exact absurd (hreads _ hmem) Bool.true_eq_false.mp
  | _ => rfl

end Stores

theorem stores_poke (p : Processor (Recorder β)) (address : UInt16) (value : UInt8) :
    Stores p (p.poke address value) [(address, value)] :=
  ⟨[.write address value], rfl, rfl⟩

theorem stores_push (p : Processor (Recorder β)) (value : UInt8) :
    Stores p (p.push value) (stacked p.registers.sp [value]) :=
  p.stores_poke _ value

theorem stores_pushWord (p : Processor (Recorder β)) (word : UInt16) :
    Stores p (p.pushWord word) (stacked p.registers.sp [highByte word, lowByte word]) :=
  (p.stores_push _).trans (stores_push _ _)

/-- What executing an operation writes. -/
theorem stores_execute (p : Processor (Recorder β)) (operation : Operation) (mode : AddressingMode) :
    Stores p (p.execute operation mode) (p.written operation mode) := by
  have hoperand := Stores.of_emits (p.emits_readOperand mode)
  cases operation with
  | read operation => exact hoperand
  | store source => exact hoperand.trans (stores_poke _ _ _)
  | modify operation =>
    exact hoperand.trans (stores_poke { p.readOperand mode with registers := _ } _ _)
  | internal operation => exact .of_emits (.refl false p)
  | push item => exact p.stores_push _
  | pull item => exact .of_emits (p.emits_pull item)
  | branch flag on => exact .of_emits (p.emits_branch _)
  | jump => exact .of_emits (p.emits_jump mode)
  | call =>
    let stacked := p.fetch.peekStack
    have hread : Stores p stacked [] := .of_emits (p.emits_fetch.trans (emits_peek _ _))
    have hpushed := hread.trans (stacked.stores_pushWord stacked.registers.pc)
    exact hpushed.trans (.of_emits (emits_fetch _))
  | leave => exact .of_emits (((p.emits_peek _).trans (emits_pullPc _)).trans (emits_fetch _))
  | leaveInterrupt => exact .of_emits ((p.emits_pull .status).trans (emits_pullPc _))
  | interrupt =>
    let fetched := p.fetch
    let flagged := { fetched with
      registers := { fetched.registers with flags := { fetched.registers.flags with b := true } } }
    let pushed := flagged.pushWord flagged.registers.pc
    have hread : Stores p flagged [] := .of_emits p.emits_fetch
    have hpushed := hread.trans (flagged.stores_pushWord flagged.registers.pc)
    have hstacked := hpushed.trans (pushed.stores_push pushed.registers.flags.toByte)
    exact hstacked.trans (.of_emits ((emits_peek _ _).trans (emits_peek _ _)))

/-- A recorder does not change what is written. -/
theorem written_forget (p : Processor (Recorder β)) (operation : Operation) (mode : AddressingMode) :
    p.forget.written operation mode = p.written operation mode := by
  have hfound := forget_readOperand p mode
  cases operation with
  | store | modify =>
    simp only [written, ← hfound]
    rfl
  | _ => rfl

/-- The record of an instruction shows the writes that were foretold and no others. -/
theorem transcript_writes (p : Processor β) : p.transcript.filterMap BusEvent.write? = p.writes := by
  have hfetch : Stores p.record p.record.fetchOpcode [] := .of_emits p.record.emits_fetch
  have hevents {q : Processor (Recorder β)} {bytes : List (UInt16 × UInt8)}
      (h : Stores p.record q bytes) : q.bus.events.filterMap BusEvent.write? = bytes := by
    obtain ⟨events, hevents, rfl⟩ := h
    rw [hevents]
    rfl
  rcases hoperation : p.instruction.mnemonic.operation with _ | operation
  · have hrecord : (Instruction.decode p.record.fetchOpcode.opcode).mnemonic.operation = none :=
      hoperation
    simp only [transcript, step, hrecord, writes, hoperation]
    exact hevents hfetch
  · have hrecord : (Instruction.decode p.record.fetchOpcode.opcode).mnemonic.operation =
        some operation := hoperation
    let fetched := p.record.fetchOpcode
    let done := fetched.execute operation p.instruction.mode
    have hdone := hfetch.trans (fetched.stores_execute operation p.instruction.mode)
    have hsettled := hdone.trans (.of_emits (done.emits_settle (done.cost p.instruction)))
    rw [List.nil_append, List.append_nil] at hsettled
    simp only [transcript, writes, hoperation, step_of_operation hrecord]
    exact (hevents hsettled).trans (written_forget fetched operation p.instruction.mode).symm

theorem write_mem_transcript {p : Processor β} {address : UInt16} {value : UInt8} :
    .write address value ∈ p.transcript ↔ (address, value) ∈ p.writes := by
  rw [← transcript_writes, List.mem_filterMap]
  constructor
  · exact fun h ↦ ⟨_, h, rfl⟩
  · rintro ⟨event, hevent, hwrite⟩
    cases event with
    | write => cases hwrite; exact hevent
    | _ => cases hwrite

end Processor

/-! ## Flat memory -/

namespace FlatMemory

/-- Writes some bytes one after another. -/
def putAll (memory : FlatMemory) (bytes : List (UInt16 × UInt8)) : FlatMemory :=
  bytes.foldl (fun memory byte ↦ memory.put byte.1 byte.2) memory

theorem get_congr {memory other : FlatMemory} (h : memory.bytes = other.bytes) (address : UInt16) :
    memory.get address = other.get address := by
  rw [get, get, h]

theorem bytes_putAll_congr {memory other : FlatMemory} (h : memory.bytes = other.bytes)
    (bytes : List (UInt16 × UInt8)) : (memory.putAll bytes).bytes = (other.putAll bytes).bytes := by
  induction bytes generalizing memory other with
  | nil => exact h
  | cons byte rest ih => exact ih (congrArg (Store.put byte.1.toNat byte.2) h)

@[simp]
theorem size_putAll (memory : FlatMemory) (bytes : List (UInt16 × UInt8)) :
    (memory.putAll bytes).bytes.size = memory.bytes.size := by
  induction bytes generalizing memory with
  | nil => rfl
  | cons byte rest ih => exact (ih _).trans (Store.size_put _ _ _)

theorem get_putAll_of_notMem {address : UInt16} {bytes : List (UInt16 × UInt8)}
    (h : ∀ byte ∈ bytes, byte.1 ≠ address) (memory : FlatMemory) :
    (memory.putAll bytes).get address = memory.get address := by
  induction bytes generalizing memory with
  | nil => rfl
  | cons byte rest ih =>
    obtain ⟨hfirst, hrest⟩ := List.forall_mem_cons.mp h
    exact (ih hrest _).trans (get_put_of_ne hfirst _ _)

/-- What is written to addresses that are not the same is there afterwards. -/
theorem get_putAll_of_mem {memory : FlatMemory} {bytes : List (UInt16 × UInt8)}
    (hdistinct : (bytes.map Prod.fst).Nodup)
    (hinside : ∀ byte ∈ bytes, byte.1.toNat < memory.bytes.size) :
    ∀ byte ∈ bytes, (memory.putAll bytes).get byte.1 = byte.2 := by
  induction bytes generalizing memory with
  | nil => exact fun byte hbyte ↦ absurd hbyte List.not_mem_nil
  | cons first rest ih =>
    obtain ⟨hfirst, hrest⟩ := List.nodup_cons.mp hdistinct
    obtain ⟨hcell, hcells⟩ := List.forall_mem_cons.mp hinside
    have hothers : ∀ byte ∈ rest, byte.1 ≠ first.1 :=
      fun byte hbyte hsame ↦ hfirst (List.mem_map.mpr ⟨byte, hbyte, hsame⟩)
    have hsize : (memory.put first.1 first.2).bytes.size = memory.bytes.size := Store.size_put _ _ _
    refine List.forall_mem_cons.mpr ⟨?_, ih hrest (by rwa [hsize])⟩
    exact (get_putAll_of_notMem hothers _).trans (get_put_self hcell first.2)

/-- Memories that hold the same byte at an address still do once the same bytes have been written to both. -/
theorem get_putAll_eq_of_get_eq {memory other : FlatMemory} {address : UInt16}
    (hsize : memory.bytes.size = other.bytes.size) (h : memory.get address = other.get address)
    (bytes : List (UInt16 × UInt8)) :
    (memory.putAll bytes).get address = (other.putAll bytes).get address := by
  induction bytes generalizing memory other with
  | nil => exact h
  | cons byte rest ih =>
    have hsizes : (memory.put byte.1 byte.2).bytes.size = (other.put byte.1 byte.2).bytes.size :=
      (Store.size_put _ _ _).trans (hsize.trans (Store.size_put _ _ _).symm)
    refine ih hsizes ?_
    change (memory.put byte.1 byte.2).get address = (other.put byte.1 byte.2).get address
    by_cases hsame : byte.1 = address
    · rw [hsame, get_eq, get_eq, put, put, Store.getElem?_put_self, Store.getElem?_put_self]
      by_cases hinside : address.toNat < memory.bytes.size
      · rw [getElem?_pos memory.bytes _ hinside, getElem?_pos other.bytes _ (hsize ▸ hinside)]
        rfl
      · rw [getElem?_neg memory.bytes _ hinside, getElem?_neg other.bytes _ (hsize ▸ hinside)]
    · rw [get_put_of_ne hsame, get_put_of_ne hsame, h]

/-- The bytes lie in memory one after another, from an address on. -/
def Holds (memory : FlatMemory) (address : UInt16) : List UInt8 → Prop
  | [] => True
  | byte :: rest => memory.get address = byte ∧ memory.Holds (address + 1) rest

theorem Holds.of_get_eq {memory other : FlatMemory} {address : UInt16} {bytes : List UInt8}
    (h : memory.Holds address bytes) (hsame : ∀ address, other.get address = memory.get address) :
    other.Holds address bytes := by
  induction bytes generalizing address with
  | nil => trivial
  | cons byte rest ih => exact ⟨(hsame address).trans h.1, ih h.2⟩

theorem bytes_apply (memory : FlatMemory) (event : BusEvent) :
    (event.apply memory).bytes = (memory.putAll event.write?.toList).bytes := by
  cases event with
  | elapse cycles => rfl
  | read address value => exact memory.bytes_note _ _ _
  | write address value =>
    exact congrArg (Store.put address.toNat value) (memory.bytes_note .write address value)

/-- Memory is changed by what is written to it and by nothing else. -/
theorem bytes_replay (memory : FlatMemory) (events : List BusEvent) :
    (replay memory events).bytes = (memory.putAll (events.filterMap BusEvent.write?)).bytes := by
  induction events generalizing memory with
  | nil => rfl
  | cons event rest ih =>
    have hfirst := memory.bytes_apply event
    have hrest := (ih (event.apply memory)).trans (bytes_putAll_congr hfirst _)
    cases event <;> exact hrest

end FlatMemory

namespace Processor

variable (p : Processor FlatMemory)

theorem peek_bytes (address : UInt16) : (p.peek address).bus.bytes = p.bus.bytes :=
  FlatMemory.bytes_note _ _ _ _

theorem fetchPair_bytes : p.fetchPair.2.bus.bytes = p.bus.bytes :=
  (peek_bytes _ _).trans (p.peek_bytes _)

theorem peekPair_bytes (pointer : UInt8) : (p.peekPair pointer).2.bus.bytes = p.bus.bytes :=
  (peek_bytes _ _).trans (p.peek_bytes _)

theorem readIndexed_latch (base : UInt16) (index : UInt8) :
    (p.readIndexed base index).latch = p.bus.get (p.readIndexed base index).address := by
  unfold readIndexed
  dsimp only
  split
  · exact FlatMemory.get_congr (peek_bytes _ _) _
  · rfl

/-- An operand is the byte at its address. -/
theorem readOperand_latch {mode : AddressingMode} (hmode : mode.locates = true) :
    (p.readOperand mode).latch = p.bus.get (p.readOperand mode).address := by
  have hget {q : Processor FlatMemory} (h : q.bus.bytes = p.bus.bytes) (address : UInt16) :
      q.bus.get address = p.bus.get address := FlatMemory.get_congr h address
  have hfetch : p.fetch.bus.bytes = p.bus.bytes := p.peek_bytes _
  have hpair := p.fetchPair_bytes
  cases mode with
  | immediate | relative => rfl
  | zeroPage => exact hget hfetch _
  | zeroPageX | zeroPageY => exact hget ((peek_bytes _ _).trans hfetch) _
  | absolute => exact hget hpair _
  | absoluteX | absoluteY => exact (readIndexed_latch _ _ _).trans (hget hpair _)
  | indirectX => exact hget ((peekPair_bytes _ _).trans hfetch) _
  | indirectY =>
    exact (readIndexed_latch _ _ _).trans (hget ((peekPair_bytes _ _).trans hfetch) _)
  | indirect | implied | invalid => exact absurd hmode Bool.false_ne_true

theorem instruction_eq : p.instruction = Instruction.decode (p.bus.get p.registers.pc) := rfl

theorem operand_eq (hmode : p.instruction.mode.locates = true) :
    p.operand = p.bus.get p.operandAddress :=
  (p.fetchOpcode.readOperand_latch hmode).trans (FlatMemory.get_congr (p.peek_bytes _) _)

theorem operand_of_immediate (h : p.instruction.mode = .immediate) :
    p.operand = p.bus.get (p.registers.pc + 1) := by
  have hread : p.operand = p.fetchOpcode.bus.get (p.registers.pc + 1) := by
    rw [operand, found, h]
    rfl
  rw [hread]
  exact FlatMemory.get_congr (p.peek_bytes _) _

theorem operandAddress_of_absolute (h : p.instruction.mode = .absolute) :
    p.operandAddress = wordOf (p.bus.get (p.registers.pc + 1)) (p.bus.get (p.registers.pc + 1 + 1)) := by
  have hlow : p.fetchOpcode.bus.get (p.registers.pc + 1) = p.bus.get (p.registers.pc + 1) :=
    FlatMemory.get_congr (p.peek_bytes _) _
  have hhigh : p.fetchOpcode.fetch.bus.get (p.registers.pc + 1 + 1) =
      p.bus.get (p.registers.pc + 1 + 1) :=
    FlatMemory.get_congr ((peek_bytes _ _).trans (p.peek_bytes _)) _
  rw [operandAddress, found, h, ← hlow, ← hhigh]
  rfl

/-- Memory behind an instruction. -/
theorem step_get (address : UInt16) :
    p.step.2.bus.get address = (p.bus.putAll p.writes).get address := by
  have hbytes := p.bus.bytes_replay p.transcript
  rw [← step_bus, transcript_writes] at hbytes
  exact FlatMemory.get_congr hbytes address

theorem step_size : p.step.2.bus.bytes.size = p.bus.bytes.size := by
  rw [step_bus, FlatMemory.bytes_replay, FlatMemory.size_putAll]

end Processor

end Vcs
