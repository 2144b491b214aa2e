import Mathlib.Logic.Function.Basic
import Vcs.Proofs.Bytes
import Vcs.Processor.Step

/-!
# Simulation

A processor knows its bus by five operations only, and of them only two answer it.  Suppose a relation between
two buses is kept by reads, writes and the passing of time, and related buses answer alike.  Main statement:
two processors with the same registers on related buses execute the same instructions with the same results
and leave related buses behind.  The opcode and the address of the last operand need not agree, for every
instruction sets them before it uses them; that is so because no opcode stores to an operand it has not
found.  The case in which both buses are one gives invariants: what every operation of a bus keeps holds
behind every run.
-/

namespace Vcs

variable {β γ : Type} [Bus β] [Bus γ]

/-- Related buses answer alike and stay related. -/
structure Bus.Simulation (R : β → γ → Prop) : Prop where
  latch : ∀ {b c}, R b c → Bus.latch b = Bus.latch c
  stopRequested : ∀ {b c}, R b c → Bus.stopRequested b = Bus.stopRequested c
  read : ∀ {b c} address, R b c → R (Bus.read address b) (Bus.read address c)
  write : ∀ {b c} address value, R b c → R (Bus.write address value b) (Bus.write address value c)
  elapse : ∀ {b c} cycles, R b c → R (Bus.elapse cycles b) (Bus.elapse cycles c)

/-- What every operation of a bus keeps. -/
structure Bus.Keeps (I : β → Prop) : Prop where
  read : ∀ {b} address, I b → I (Bus.read address b)
  write : ∀ {b} address value, I b → I (Bus.write address value b)
  elapse : ∀ {b} cycles, I b → I (Bus.elapse cycles b)

theorem Bus.Keeps.simulation {I : β → Prop} (h : Bus.Keeps I) :
    Bus.Simulation fun b c ↦ b = c ∧ I b where
  latch := fun ⟨heq, _⟩ ↦ congrArg _ heq
  stopRequested := fun ⟨heq, _⟩ ↦ congrArg _ heq
  read := fun address ⟨heq, hkept⟩ ↦ ⟨congrArg _ heq, h.read address hkept⟩
  write := fun address value ⟨heq, hkept⟩ ↦ ⟨congrArg _ heq, h.write address value hkept⟩
  elapse := fun cycles ⟨heq, hkept⟩ ↦ ⟨congrArg _ heq, h.elapse cycles hkept⟩

/-- Whether an addressing mode names an address to which a result may be stored. -/
def AddressingMode.locates : AddressingMode → Bool
  | .indirect | .implied | .invalid => false
  | _ => true

/-- Whether an operation stores to the address of its operand. -/
def Operation.stores : Operation → Bool
  | .store _ | .modify _ => true
  | _ => false

theorem locates_of_stores {opcode : UInt8} {operation : Operation}
    (h : (Instruction.decode opcode).mnemonic.operation = some operation)
    (hstores : operation.stores = true) : (Instruction.decode opcode).mode.locates = true := by
  have hall := forall_byte (p := fun opcode ↦ (Instruction.decode opcode).mnemonic.operation.all
    (fun operation ↦ !operation.stores || (Instruction.decode opcode).mode.locates) = true)
    (by decide +kernel) opcode
  simpa [h, hstores] using hall

/-- All instructions that read an operand find it in memory, but for those that ignore it. -/
theorem locates_of_read {opcode : UInt8} {operation : ReadOperation}
    (h : (Instruction.decode opcode).mnemonic.operation = some (.read operation))
    (hreads : operation ≠ .ignore) : (Instruction.decode opcode).mode.locates = true := by
  have hall := forall_byte (p := fun opcode ↦ (Instruction.decode opcode).mnemonic.operation.all
    (fun
      | .read operation => operation == .ignore || (Instruction.decode opcode).mode.locates
      | _ => true) = true) (by decide +kernel) opcode
  simpa [h, hreads] using hall

namespace Processor

/-- Two processors that go on alike. -/
structure Alike (R : β → γ → Prop) (p : Processor β) (q : Processor γ) : Prop where
  registers : p.registers = q.registers
  surcharge : p.surcharge = q.surcharge
  signalled : p.signalled = q.signalled
  bus : R p.bus q.bus

namespace Alike

variable {R : β → γ → Prop} {p : Processor β} {q : Processor γ}

section Accesses

omit [Bus β] [Bus γ]

theorem load (h : Alike R p q) {registers other : Registers} (heq : registers = other) :
    Alike R { p with registers := registers } { q with registers := other } :=
  ⟨heq, h.surcharge, h.signalled, h.bus⟩

theorem charge (h : Alike R p q) {surcharge other : UInt8} (heq : surcharge = other) :
    Alike R { p with surcharge := surcharge } { q with surcharge := other } :=
  ⟨h.registers, heq, h.signalled, h.bus⟩

theorem jumpTo (h : Alike R p q) {target other : UInt16} (heq : target = other) :
    Alike R (p.jumpTo target) (q.jumpTo other) := by
  apply h.load
  rw [h.registers, heq]

end Accesses

variable (hsim : Bus.Simulation R)

include hsim

theorem latch (h : Alike R p q) : p.latch = q.latch :=
  hsim.latch h.bus

theorem peek (h : Alike R p q) {address other : UInt16} (heq : address = other) :
    Alike R (p.peek address) (q.peek other) := by
  subst heq
  exact ⟨h.registers, h.surcharge, congrArg (· + 1) h.signalled,
    hsim.read address (hsim.elapse 1 h.bus)⟩

theorem peekUnsignalled (h : Alike R p q) {address other : UInt16} (heq : address = other) :
    Alike R (p.peekUnsignalled address) (q.peekUnsignalled other) := by
  subst heq
  exact ⟨h.registers, h.surcharge, h.signalled, hsim.read address h.bus⟩

theorem poke (h : Alike R p q) {address other : UInt16} (haddress : address = other)
    {value byte : UInt8} (hvalue : value = byte) :
    Alike R (p.poke address value) (q.poke other byte) := by
  subst haddress hvalue
  exact ⟨h.registers, h.surcharge, h.signalled, hsim.write address value h.bus⟩

theorem fetch (h : Alike R p q) : Alike R p.fetch q.fetch := by
  have hpc : p.registers.pc = q.registers.pc := congrArg Registers.pc h.registers
  exact (h.peek hsim hpc).jumpTo (congrArg (· + 1) hpc)

theorem peekStack (h : Alike R p q) : Alike R p.peekStack q.peekStack :=
  h.peek hsim (congrArg Registers.stackAddress h.registers)

theorem push (h : Alike R p q) {value byte : UInt8} (hvalue : value = byte) :
    Alike R (p.push value) (q.push byte) := by
  have hstack := congrArg Registers.stackAddress h.registers
  apply (h.poke hsim hstack hvalue).load
  exact congrArg (fun r : Registers ↦ { r with sp := r.sp - 1 }) h.registers

theorem pushWord (h : Alike R p q) {word other : UInt16} (hword : word = other) :
    Alike R (p.pushWord word) (q.pushWord other) := by
  subst hword
  exact (h.push hsim rfl).push hsim rfl

theorem pop (h : Alike R p q) : Alike R p.pop q.pop := by
  have hmoved := congrArg (fun r : Registers ↦ { r with sp := r.sp + 1 }) h.registers
  exact (h.load hmoved).peek hsim (congrArg Registers.stackAddress hmoved)

theorem fetchPair (h : Alike R p q) :
    p.fetchPair.1 = q.fetchPair.1 ∧ Alike R p.fetchPair.2 q.fetchPair.2 :=
  have hfirst := h.fetch hsim
  ⟨hfirst.latch hsim, hfirst.fetch hsim⟩

theorem peekPair (h : Alike R p q) {pointer other : UInt8} (heq : pointer = other) :
    (p.peekPair pointer).1 = (q.peekPair other).1 ∧
      Alike R (p.peekPair pointer).2 (q.peekPair other).2 := by
  subst heq
  have hfirst := h.peek hsim (rfl : pointer.toUInt16 = pointer.toUInt16)
  exact ⟨hfirst.latch hsim, hfirst.peek hsim rfl⟩

theorem jumpThrough (h : Alike R p q) (vector : UInt16) :
    Alike R (p.jumpThrough vector) (q.jumpThrough vector) := by
  have hlow := h.peek hsim (rfl : vector = vector)
  have hhigh := hlow.peek hsim (rfl : vector + 1 = vector + 1)
  apply hhigh.jumpTo
  rw [hlow.latch hsim, hhigh.latch hsim]

theorem readAt (h : Alike R p q) {address other : UInt16} (heq : address = other) :
    Alike R (p.readAt address) (q.readAt other) ∧
      (p.readAt address).address = (q.readAt other).address := by
  subst heq
  have hplaced : Alike R { p with address := address } { q with address := address } :=
    ⟨h.registers, h.surcharge, h.signalled, h.bus⟩
  exact ⟨hplaced.peek hsim rfl, rfl⟩

theorem readIndexed (h : Alike R p q) {base other : UInt16} (hbase : base = other)
    {index byte : UInt8} (hindex : index = byte) :
    Alike R (p.readIndexed base index) (q.readIndexed other byte) ∧
      (p.readIndexed base index).address = (q.readIndexed other byte).address := by
  subst hbase hindex
  unfold Processor.readIndexed
  split
  · exact ((h.charge rfl).peek hsim rfl).readAt hsim rfl
  · exact h.readAt hsim rfl

theorem readZeroPageIndexed (h : Alike R p q) {index other : UInt8} (heq : index = other) :
    Alike R (p.readZeroPageIndexed index) (q.readZeroPageIndexed other) ∧
      (p.readZeroPageIndexed index).address = (q.readZeroPageIndexed other).address := by
  have hfetch := h.fetch hsim
  have hbase := hfetch.latch hsim
  apply (hfetch.peek hsim (congrArg UInt8.toUInt16 hbase)).readAt hsim
  rw [hbase, heq]

/-- The address of the operand agrees as well if the mode sets one. -/
theorem readOperand (h : Alike R p q) (mode : AddressingMode) :
    Alike R (p.readOperand mode) (q.readOperand mode) ∧
      (mode.locates = true → (p.readOperand mode).address = (q.readOperand mode).address) := by
  have hx := congrArg Registers.x h.registers
  have hy := congrArg Registers.y h.registers
  have hfetch := h.fetch hsim
  obtain ⟨hlow, hpair⟩ := h.fetchPair hsim
  have hword : wordOf p.fetchPair.1 p.fetchPair.2.latch = wordOf q.fetchPair.1 q.fetchPair.2.latch := by
    rw [hlow, hpair.latch hsim]
  have hkeep {p' : Processor β} {q' : Processor γ} {address : Prop}
      (hread : Alike R p' q' ∧ address) : Alike R p' q' ∧ (mode.locates = true → address) :=
    ⟨hread.1, fun _ ↦ hread.2⟩
  cases mode with
  | immediate | relative =>
    have hpc := congrArg Registers.pc h.registers
    have hplaced : Alike R { p with address := p.registers.pc } { q with address := q.registers.pc } :=
      ⟨h.registers, h.surcharge, h.signalled, h.bus⟩
    exact ⟨hplaced.fetch hsim, fun _ ↦ hpc⟩
  | zeroPage => exact hkeep (hfetch.readAt hsim (congrArg UInt8.toUInt16 (hfetch.latch hsim)))
  | zeroPageX => exact hkeep (h.readZeroPageIndexed hsim hx)
  | zeroPageY => exact hkeep (h.readZeroPageIndexed hsim hy)
  | absolute => exact hkeep (hpair.readAt hsim hword)
  | absoluteX => exact hkeep (hpair.readIndexed hsim hword (congrArg Registers.x hpair.registers))
  | absoluteY => exact hkeep (hpair.readIndexed hsim hword (congrArg Registers.y hpair.registers))
  | indirectX =>
    have hpointer : p.fetch.latch + p.fetch.registers.x = q.fetch.latch + q.fetch.registers.x := by
      rw [hfetch.latch hsim, hfetch.registers]
    obtain ⟨hfirst, hsecond⟩ := hfetch.peekPair hsim hpointer
    exact hkeep (hsecond.readAt hsim (congr_arg₂ wordOf hfirst (hsecond.latch hsim)))
  | indirectY =>
    obtain ⟨hfirst, hsecond⟩ := hfetch.peekPair hsim (hfetch.latch hsim)
    exact hkeep (hsecond.readIndexed hsim (congr_arg₂ wordOf hfirst (hsecond.latch hsim))
      (congrArg Registers.y hsecond.registers))
  | indirect | implied | invalid => exact ⟨h, nofun⟩

theorem jump (h : Alike R p q) (mode : AddressingMode) : Alike R (p.jump mode) (q.jump mode) := by
  obtain ⟨hlow, hpair⟩ := h.fetchPair hsim
  have hpointer : wordOf p.fetchPair.1 p.fetchPair.2.latch =
      wordOf q.fetchPair.1 q.fetchPair.2.latch := by
    rw [hlow, hpair.latch hsim]
  cases mode with
  | indirect =>
    have hfirst := hpair.peek hsim hpointer
    have hsecond := hfirst.peek hsim (congrArg (· + 1) hpointer)
    have htarget := congr_arg₂ wordOf (hfirst.latch hsim) (hsecond.latch hsim)
    exact (hsecond.peekUnsignalled hsim htarget).jumpTo htarget
  | _ => exact (hpair.peekUnsignalled hsim hpointer).jumpTo hpointer

theorem call (h : Alike R p q) : Alike R p.call q.call := by
  have hfetch := h.fetch hsim
  have hstack := hfetch.peekStack hsim
  have hlast := (hstack.pushWord hsim (congrArg Registers.pc hstack.registers)).fetch hsim
  exact hlast.jumpTo (congr_arg₂ wordOf (hfetch.latch hsim) (hlast.latch hsim))

theorem pullPc (h : Alike R p q) : Alike R p.pullPc q.pullPc := by
  have hlow := h.pop hsim
  have hhigh := hlow.pop hsim
  exact hhigh.jumpTo (congr_arg₂ wordOf (hlow.latch hsim) (hhigh.latch hsim))

theorem leave (h : Alike R p q) : Alike R p.leave q.leave :=
  ((h.peekStack hsim).pullPc hsim).fetch hsim

theorem pull (h : Alike R p q) (item : StackItem) : Alike R (p.pull item) (q.pull item) := by
  have hpop := (h.peekStack hsim).pop hsim
  exact hpop.load (congr_arg₂ item.restore hpop.registers (hpop.latch hsim))

theorem leaveInterrupt (h : Alike R p q) : Alike R p.leaveInterrupt q.leaveInterrupt :=
  (h.pull hsim .status).pullPc hsim

theorem interrupt (h : Alike R p q) : Alike R p.interrupt q.interrupt := by
  have hfetch := h.fetch hsim
  have hbroken := hfetch.load
    (congrArg (fun r : Registers ↦ { r with flags := { r.flags with b := true } }) hfetch.registers)
  have hword := hbroken.pushWord hsim (congrArg Registers.pc hbroken.registers)
  have hpushed := hword.push hsim (congrArg (fun r : Registers ↦ r.flags.toByte) hword.registers)
  have hmasked := hpushed.load
    (congrArg (fun r : Registers ↦ { r with flags := { r.flags with i := true } }) hpushed.registers)
  exact hmasked.jumpThrough hsim 0xFFFE

theorem branch (h : Alike R p q) {taken other : Bool} (htaken : taken = other) :
    Alike R (p.branch taken) (q.branch other) := by
  subst htaken
  obtain ⟨hoperand, -⟩ := h.readOperand hsim .relative
  rcases taken with _ | _
  · exact hoperand
  · have hpeek := hoperand.peek hsim (congrArg Registers.pc hoperand.registers)
    have hpc := congrArg Registers.pc hpeek.registers
    have htarget := congr_arg₂ branchTarget hpc (hoperand.latch hsim)
    have hsurcharge := congr_arg₂ (fun target pc : UInt16 ↦
      if highByte target = highByte pc then (1 : UInt8) else 2) htarget hpc
    exact (hpeek.charge hsurcharge).jumpTo htarget

theorem execute (h : Alike R p q) {operation : Operation} {mode : AddressingMode}
    (hmode : operation.stores = true → mode.locates = true) :
    Alike R (p.execute operation mode) (q.execute operation mode) := by
  obtain ⟨hoperand, haddress⟩ := h.readOperand hsim mode
  cases operation with
  | read operation =>
    exact hoperand.load (congr_arg₂ operation.apply hoperand.registers (hoperand.latch hsim))
  | store source =>
    exact hoperand.poke hsim (haddress (hmode rfl)) (congrArg source.value hoperand.registers)
  | modify operation =>
    have hresult := congr_arg₂ operation.apply hoperand.registers (hoperand.latch hsim)
    exact (hoperand.load (congrArg Prod.snd hresult)).poke hsim (haddress (hmode rfl))
      (congrArg Prod.fst hresult)
  | internal operation => exact h.load (congrArg operation.apply h.registers)
  | push item => exact h.push hsim (congrArg item.value h.registers)
  | pull item => exact h.pull hsim item
  | branch flag on =>
    exact h.branch hsim (congrArg (fun r : Registers ↦ r.flags.get flag == on) h.registers)
  | jump => exact h.jump hsim mode
  | call => exact h.call hsim
  | leave => exact h.leave hsim
  | leaveInterrupt => exact h.leaveInterrupt hsim
  | interrupt => exact h.interrupt hsim

theorem settle (h : Alike R p q) {cost other : Nat} (hcost : cost = other) :
    Alike R (p.settle cost) (q.settle other) := by
  subst hcost
  have hrest : cost - p.signalled = cost - q.signalled := congrArg (cost - ·) h.signalled
  by_cases hdone : cost - q.signalled = 0
  · rw [Processor.settle, Processor.settle, hrest, if_pos hdone, if_pos hdone]
    exact h
  · rw [Processor.settle, Processor.settle, hrest, if_neg hdone, if_neg hdone]
    exact ⟨h.registers, h.surcharge, congrArg (· + _) h.signalled, hsim.elapse _ h.bus⟩

/-- The same instruction, with the same result. -/
structure Same (R : β → γ → Prop) {ε : Type} (first : ε × Processor β)
    (second : ε × Processor γ) : Prop where
  result : first.1 = second.1
  alike : Alike R first.2 second.2

/-- What follows the fetch of an opcode. -/
theorem step_of_fetchOpcode (h : Alike R p.fetchOpcode q.fetchOpcode)
    (hopcode : p.fetchOpcode.opcode = q.fetchOpcode.opcode) : Same R p.step q.step := by
  rcases hoperation : (Instruction.decode p.fetchOpcode.opcode).mnemonic.operation with
    _ | operation
  · have hother : (Instruction.decode q.fetchOpcode.opcode).mnemonic.operation = none :=
      hopcode ▸ hoperation
    simp only [Processor.step, hoperation, hother]
    exact ⟨by rw [h.registers, hopcode], h⟩
  · have hother : (Instruction.decode q.fetchOpcode.opcode).mnemonic.operation = some operation :=
      hopcode ▸ hoperation
    let instruction := Instruction.decode p.fetchOpcode.opcode
    have hdone : Alike R (p.fetchOpcode.execute operation instruction.mode)
        (q.fetchOpcode.execute operation instruction.mode) :=
      h.execute hsim (locates_of_stores hoperation)
    have hsettled := hdone.settle hsim (congrArg (fun surcharge : UInt8 ↦
      (instruction.cycles + instruction.extra.billed surcharge).toNat) hdone.surcharge)
    rw [← hopcode] at hother
    simp only [Processor.step, ← hopcode, hoperation]
    exact ⟨congrArg Except.ok hsettled.signalled,
      hsettled.registers, hsettled.surcharge, rfl, hsettled.bus⟩

/-- One instruction on related buses. -/
theorem step (h : Alike R p q) : Same R p.step q.step := by
  have hfetch := h.fetch hsim
  have hopcode : p.fetchOpcode.opcode = q.fetchOpcode.opcode := hfetch.latch hsim
  exact step_of_fetchOpcode hsim ⟨hfetch.registers, rfl, hfetch.signalled, hfetch.bus⟩ hopcode

/-- Runs on related buses take the same steps and end alike. -/
theorem runFrom (h : Alike R p q) (done budget : Nat) :
    Same R (p.runFrom done budget) (q.runFrom done budget) := by
  induction budget generalizing p q done with
  | zero => exact ⟨rfl, h⟩
  | succ budget ih =>
    obtain ⟨hresult, hnext⟩ := h.step hsim
    rcases hp : p.step with ⟨result, next⟩
    rcases hq : q.step with ⟨other, follower⟩
    rw [hp, hq] at hresult hnext
    cases hresult
    have hstop : Bus.stopRequested next.bus = Bus.stopRequested follower.bus :=
      hsim.stopRequested hnext.bus
    cases result with
    | error fault =>
      simp only [Processor.runFrom, hp, hq]
      exact ⟨rfl, hnext⟩
    | ok cycles =>
      simp only [Processor.runFrom, hp, hq, hstop]
      split
      · exact ⟨rfl, hnext⟩
      · exact ih hnext (done + 1)

end Alike

variable {I : β → Prop} {p : Processor β} (h : Bus.Keeps I)

include h

/-- The first thing that a step tells the bus is that a cycle has passed. -/
theorem step_keeps (hstart : I (Bus.elapse 1 p.bus)) : I p.step.2.bus := by
  have hfetched : I p.fetchOpcode.bus := h.read _ hstart
  have hsame := Alike.step_of_fetchOpcode h.simulation (p := p) (q := p) ⟨rfl, rfl, rfl, rfl, hfetched⟩ rfl
  exact hsame.alike.bus.2

theorem runFrom_keeps (hstart : I p.bus) (done budget : Nat) :
    I (p.runFrom done budget).2.bus :=
  have halike : Alike (fun b c ↦ b = c ∧ I b) p p := ⟨rfl, rfl, rfl, rfl, hstart⟩
  (halike.runFrom h.simulation done budget).alike.bus.2

end Processor

end Vcs
