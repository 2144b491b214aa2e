import Vcs.Processor.FlatMemory
import Vcs.Proofs.Bytes
import Vcs.Proofs.Processor.Recorder

/-!
# Cycle Accounting

What an instruction costs is known from two sources.  The table gives the cycles of its opcode, and the reads
it makes are announced one cycle each; a subtraction at the end makes up the difference.  Here the two are
reconciled.  Of every opcode with an operation the announced reads fit into what the table bills, but for six
undocumented instructions that read an operand and drop it: they are billed nothing for crossing a page and
announce the extra read all the same.  Every access happens at the total of the reads announced by then, and
what is left of the cost is reported behind the last access.
-/

namespace Vcs

/-- Cycles that an event reports. -/
def BusEvent.cycles : BusEvent → Nat
  | elapse cycles => cycles
  | read .. | write .. => 0

/-- Cycles that a record reports altogether. -/
def totalCycles : List BusEvent → Nat
  | [] => 0
  | event :: rest => event.cycles + totalCycles rest

/-- The accesses of a record, each with the total of cycles reported before it. -/
def stamped (total : Nat) : List BusEvent → List (Nat × BusEvent)
  | [] => []
  | .elapse cycles :: rest => stamped (total + cycles) rest
  | .read address value :: rest => (total, .read address value) :: stamped total rest
  | .write address value :: rest => (total, .write address value) :: stamped total rest

/-- An access of the processor. -/
inductive BusAccess where
  /-- A read that is announced by a cycle of its own. -/
  | announced (address : UInt16) (value : UInt8)
  /-- A read whose cycle is settled with the rest of the instruction. -/
  | silent (address : UInt16) (value : UInt8)
  | write (address : UInt16) (value : UInt8)
  deriving DecidableEq, Repr

namespace BusAccess

/-- The access itself. -/
def event : BusAccess → BusEvent
  | announced address value | silent address value => .read address value
  | write address value => .write address value

/-- What the bus is told of the access. -/
def events : BusAccess → List BusEvent
  | announced address value => [.elapse 1, .read address value]
  | silent address value => [.read address value]
  | write address value => [.write address value]

def isAnnounced : BusAccess → Bool
  | announced .. => true
  | silent .. | write .. => false

def isSilent : BusAccess → Bool
  | silent .. => true
  | announced .. | write .. => false

end BusAccess

/-- Reads among some accesses that are announced. -/
def announcedReads (accesses : List BusAccess) : Nat :=
  accesses.countP BusAccess.isAnnounced

/-- How the cycles are reported that are left at the end of an instruction. -/
def lump (cycles : Nat) : List BusEvent :=
  if cycles = 0 then [] else [.elapse cycles]

theorem totalCycles_append (first second : List BusEvent) :
    totalCycles (first ++ second) = totalCycles first + totalCycles second := by
  induction first with
  | nil => exact (Nat.zero_add _).symm
  | cons event rest ih =>
    rw [List.cons_append, totalCycles, ih, totalCycles, Nat.add_assoc]

theorem totalCycles_lump (cycles : Nat) : totalCycles (lump cycles) = cycles := by
  unfold lump
  split
  · next h => rw [h]; rfl
  · simp [totalCycles, BusEvent.cycles]

theorem totalCycles_events (accesses : List BusAccess) :
    totalCycles (accesses.flatMap BusAccess.events) = announcedReads accesses := by
  induction accesses with
  | nil => rfl
  | cons access rest ih =>
    rw [List.flatMap_cons, totalCycles_append, ih, announcedReads, announcedReads,
      List.countP_cons]
    cases access <;> simp [BusAccess.events, BusAccess.isAnnounced, totalCycles, BusEvent.cycles]
    omega

theorem announcedReads_append (first second : List BusAccess) :
    announcedReads (first ++ second) = announcedReads first + announcedReads second :=
  List.countP_append

/-- Every access happens at the total of the reads announced by then, itself included. -/
theorem stamped_events (total : Nat) (before after : List BusAccess) (access : BusAccess)
    (tail : List BusEvent) :
    (stamped total ((before ++ access :: after).flatMap BusAccess.events ++ tail))[before.length]? =
      some (total + announcedReads (before ++ [access]), access.event) := by
  induction before generalizing total with
  | nil =>
    cases access <;> simp [stamped, BusAccess.events, BusAccess.event, announcedReads,
      BusAccess.isAnnounced]
  | cons first before ih =>
    cases first with
    | announced address value =>
      have hcount : announcedReads (.announced address value :: (before ++ [access])) =
          announcedReads (before ++ [access]) + 1 := List.countP_cons_of_pos rfl
      have hnext := ih (total + 1)
      simp only [List.cons_append, List.flatMap_cons, BusAccess.events, stamped, List.nil_append,
        List.length_cons, List.getElem?_cons_succ, hcount] at hnext ⊢
      rw [hnext]
      simp only [Option.some.injEq, Prod.mk.injEq, and_true]
      omega
    | silent address value => exact ih total
    | write address value => exact ih total

namespace Processor

variable {β : Type}

/-- On its way from `p` to `q` the processor announces `count` reads, makes no other reads, and the record
says nothing else. -/
def Spends (p q : Processor (Recorder β)) (count : Nat) : Prop :=
  ∃ accesses : List BusAccess,
    (∀ access ∈ accesses, access.isSilent = false) ∧ announcedReads accesses = count ∧
      q.bus.events = p.bus.events ++ accesses.flatMap BusAccess.events ∧
      q.signalled = p.signalled + count

namespace Spends

variable {p q r : Processor (Recorder β)} {first second count : Nat}

theorem refl (p : Processor (Recorder β)) : Spends p p 0 :=
  ⟨[], by simp, rfl, by simp, rfl⟩

theorem trans (hfirst : Spends p q first) (hsecond : Spends q r second) :
    Spends p r (first + second) := by
  obtain ⟨before, hbefore, hcount, hevents, hsignalled⟩ := hfirst
  obtain ⟨after, hafter, hcount', hevents', hsignalled'⟩ := hsecond
  refine ⟨before ++ after, ?_, ?_, ?_, ?_⟩
  · intro access hmem
    rcases List.mem_append.mp hmem with h | h
    · exact hbefore access h
    · exact hafter access h
  · rw [announcedReads_append, hcount, hcount']
  · rw [hevents', hevents, List.flatMap_append, List.append_assoc]
  · rw [hsignalled', hsignalled, Nat.add_assoc]

theorem of_eq (h : Spends p q first) (heq : first = second) : Spends p q second :=
  heq ▸ h

theorem load (h : Spends p q count) (registers : Registers) :
    Spends p { q with registers := registers } count := h

end Spends

variable [Bus β] (p : Processor (Recorder β))

theorem spends_peek (address : UInt16) : Spends p (p.peek address) 1 := by
  refine ⟨[.announced address (p.peek address).latch], by simp [BusAccess.isSilent], rfl, ?_, rfl⟩
  change (p.bus.events ++ [.elapse 1]) ++ [.read address _] = _
  rw [List.append_assoc]
  rfl

theorem spends_poke (address : UInt16) (value : UInt8) : Spends p (p.poke address value) 0 :=
  ⟨[.write address value], by simp [BusAccess.isSilent], rfl, rfl, rfl⟩

theorem spends_fetch : Spends p p.fetch 1 :=
  p.spends_peek p.registers.pc

theorem spends_readAt (address : UInt16) : Spends p (p.readAt address) 1 :=
  { p with address := address }.spends_peek address

theorem spends_fetchPair : Spends p p.fetchPair.2 2 :=
  p.spends_fetch.trans p.fetch.spends_fetch

theorem spends_peekPair (pointer : UInt8) : Spends p (p.peekPair pointer).2 2 :=
  (p.spends_peek _).trans (spends_peek _ _)

theorem spends_push (value : UInt8) : Spends p (p.push value) 0 :=
  (p.spends_poke _ value).load _

theorem spends_pushWord (word : UInt16) : Spends p (p.pushWord word) 0 :=
  (p.spends_push _).trans (spends_push _ _)

theorem spends_pop : Spends p p.pop 1 :=
  spends_peek _ _

theorem spends_peekStack : Spends p p.peekStack 1 :=
  p.spends_peek _

/-- Whether two addresses lie on the same page. -/
def samePage (first second : UInt16) : Bool :=
  highByte first == highByte second

/-- The carry out of the low byte is what takes an indexed address to another page. -/
theorem crosses_eq (base : UInt16) (index : UInt8) :
    crosses base index = !samePage (base + index.toUInt16) base := by
  have hbase := base.toNat_lt
  have hindex := index.toNat_lt
  have hlow := toNat_lowByte base
  have hsum : (base + index.toUInt16).toNat = (base.toNat + index.toNat) % 65536 := by
    simp
  have hpage : highByte (base + index.toUInt16) = highByte base ↔
      (base.toNat + index.toNat) % 65536 / 256 = base.toNat / 256 := by
    rw [← UInt8.toNat_inj, toNat_highByte, toNat_highByte, hsum]
  have hcarry : 0xFF < (lowByte base).toNat + index.toNat ↔
      ¬ (base.toNat + index.toNat) % 65536 / 256 = base.toNat / 256 := by
    omega
  rw [Bool.eq_iff_iff]
  simp only [crosses, samePage, decide_eq_true_eq, Bool.not_eq_true', beq_eq_false_iff_ne, ne_eq,
    hpage, hcarry]

/-- The address that an operand is indexed from and the index, by the bytes that the bus answers. -/
def indexing? {β : Type} [Bus β] (p : Processor β) (mode : AddressingMode) :
    Option (UInt16 × UInt8) :=
  match mode with
  | .absoluteX => some (wordOf p.fetchPair.1 p.fetchPair.2.latch, p.registers.x)
  | .absoluteY => some (wordOf p.fetchPair.1 p.fetchPair.2.latch, p.registers.y)
  | .indirectY =>
    let pair := p.fetch.peekPair p.fetch.latch
    some (wordOf pair.1 pair.2.latch, p.registers.y)
  | _ => none

/-- Whether indexing takes the operand to another page. -/
def crossesPage {β : Type} [Bus β] (p : Processor β) (mode : AddressingMode) : Bool :=
  match p.indexing? mode with
  | some (base, index) => !samePage (base + index.toUInt16) base
  | none => false

/-- Reads that it takes to find and read an operand if no page is crossed. -/
def operandReads : AddressingMode → Nat
  | .immediate | .relative => 1
  | .zeroPage => 2
  | .zeroPageX | .zeroPageY | .absolute | .absoluteX | .absoluteY => 3
  | .indirectX | .indirectY => 4
  | .indirect | .implied | .invalid => 0

/-- An indexed operand is read twice if its page is crossed, and then the surcharge is set. -/
theorem spends_readIndexed (base : UInt16) (index : UInt8) :
    Spends p (p.readIndexed base index)
        (1 + (!samePage (base + index.toUInt16) base).toNat) ∧
      (p.readIndexed base index).surcharge =
        if !samePage (base + index.toUInt16) base then 1 else p.surcharge := by
  unfold readIndexed
  simp only [crosses_eq]
  rcases samePage (base + index.toUInt16) base with _ | _
  · exact ⟨(spends_peek _ _).trans (spends_readAt _ _), rfl⟩
  · exact ⟨spends_readAt p _, rfl⟩

theorem spends_readZeroPageIndexed (index : UInt8) :
    Spends p (p.readZeroPageIndexed index) 3 :=
  (p.spends_fetch.trans (spends_peek _ _)).trans (spends_readAt _ _)

theorem spends_readOperand (mode : AddressingMode) :
    Spends p (p.readOperand mode) (operandReads mode + (p.crossesPage mode).toNat) ∧
      (p.readOperand mode).surcharge = if p.crossesPage mode then 1 else p.surcharge := by
  cases mode with
  | immediate | relative => exact ⟨spends_fetch _, rfl⟩
  | zeroPage => exact ⟨p.spends_fetch.trans (spends_readAt _ _), rfl⟩
  | zeroPageX | zeroPageY => exact ⟨p.spends_readZeroPageIndexed _, rfl⟩
  | absolute => exact ⟨p.spends_fetchPair.trans (spends_readAt _ _), rfl⟩
  | absoluteX | absoluteY =>
    obtain ⟨hspends, hsurcharge⟩ := spends_readIndexed p.fetchPair.2
      (wordOf p.fetchPair.1 p.fetchPair.2.latch) _
    exact ⟨(p.spends_fetchPair.trans hspends).of_eq (Nat.add_assoc 2 1 _).symm, hsurcharge⟩
  | indirectX => exact ⟨(p.spends_fetch.trans (spends_peekPair _ _)).trans (spends_readAt _ _), rfl⟩
  | indirectY =>
    let pair := p.fetch.peekPair p.fetch.latch
    obtain ⟨hspends, hsurcharge⟩ := spends_readIndexed pair.2 (wordOf pair.1 pair.2.latch)
      p.registers.y
    have hpair : Spends p pair.2 3 := p.spends_fetch.trans (spends_peekPair _ _)
    exact ⟨(hpair.trans hspends).of_eq (Nat.add_assoc 3 1 _).symm, hsurcharge⟩
  | indirect | implied | invalid => exact ⟨.refl p, rfl⟩

-- Only an indexed operand and a branch touch the surcharge.
section Surcharge

variable {β : Type} [Bus β] (p : Processor β)

@[simp]
theorem peek_surcharge (address : UInt16) : (p.peek address).surcharge = p.surcharge := rfl

omit [Bus β] in
@[simp]
theorem jumpTo_surcharge (target : UInt16) : (p.jumpTo target).surcharge = p.surcharge := rfl

@[simp]
theorem fetch_surcharge : p.fetch.surcharge = p.surcharge := rfl

@[simp]
theorem fetchPair_surcharge : p.fetchPair.2.surcharge = p.surcharge := rfl

@[simp]
theorem peekUnsignalled_surcharge (address : UInt16) :
    (p.peekUnsignalled address).surcharge = p.surcharge := rfl

@[simp]
theorem push_surcharge (value : UInt8) : (p.push value).surcharge = p.surcharge := rfl

@[simp]
theorem pushWord_surcharge (word : UInt16) : (p.pushWord word).surcharge = p.surcharge := by
  simp [pushWord]

@[simp]
theorem pop_surcharge : p.pop.surcharge = p.surcharge := rfl

@[simp]
theorem peekStack_surcharge : p.peekStack.surcharge = p.surcharge := rfl

@[simp]
theorem pullPc_surcharge : p.pullPc.surcharge = p.surcharge := by
  simp [pullPc]

@[simp]
theorem pull_surcharge (item : StackItem) : (p.pull item).surcharge = p.surcharge := by
  simp [pull]

@[simp]
theorem jumpThrough_surcharge (vector : UInt16) :
    (p.jumpThrough vector).surcharge = p.surcharge := by
  simp [jumpThrough]

theorem jump_surcharge (mode : AddressingMode) : (p.jump mode).surcharge = p.surcharge := by
  cases mode <;> simp [jump, land]

theorem call_surcharge : p.call.surcharge = p.surcharge := by
  simp [call]

theorem leave_surcharge : p.leave.surcharge = p.surcharge := by
  simp [leave]

theorem leaveInterrupt_surcharge : p.leaveInterrupt.surcharge = p.surcharge := by
  simp [leaveInterrupt]

theorem interrupt_surcharge : p.interrupt.surcharge = p.surcharge := by
  simp [interrupt]

end Surcharge

/-- Cycles that a branch costs on top of the table if it is taken: one, or two onto another page. -/
def branchCycles {β : Type} [Bus β] (p : Processor β) (taken : Bool) : Nat :=
  let pc := p.fetch.registers.pc
  if taken then if samePage (branchTarget pc p.fetch.latch) pc then 1 else 2 else 0

theorem spends_branch (hfresh : p.surcharge = 0) (taken : Bool) :
    Spends p (p.branch taken) (1 + taken.toNat) ∧
      (p.branch taken).surcharge.toNat = p.branchCycles taken := by
  have hoperand : Spends p (p.readOperand .relative) 1 := spends_fetch _
  rcases taken with _ | _
  · refine ⟨hoperand, ?_⟩
    change p.surcharge.toNat = 0
    rw [hfresh]
    rfl
  · refine ⟨hoperand.trans (spends_peek _ _), ?_⟩
    let pc := p.fetch.registers.pc
    let target := branchTarget pc p.fetch.latch
    change (if highByte target = highByte pc then (1 : UInt8) else 2).toNat =
      if samePage target pc then 1 else 2
    by_cases hpage : highByte target = highByte pc
    · have hsame : samePage target pc = true := beq_iff_eq.mpr hpage
      rw [if_pos hpage, if_pos hsame]
      rfl
    · have hsame : ¬ samePage target pc = true := fun h ↦ hpage (beq_iff_eq.mp h)
      rw [if_neg hpage, if_neg hsame]
      rfl

theorem spends_pullPc : Spends p p.pullPc 2 :=
  p.spends_pop.trans (spends_pop _)

theorem spends_pull (item : StackItem) : Spends p (p.pull item) 2 :=
  p.spends_peekStack.trans (spends_pop _)

theorem spends_call : Spends p p.call 3 := by
  let stacked := p.fetch.peekStack
  let pushed := stacked.pushWord stacked.registers.pc
  have hstacked : Spends p stacked 2 := p.spends_fetch.trans (spends_peekStack _)
  have hpushed : Spends p pushed 2 := hstacked.trans (stacked.spends_pushWord _)
  exact (hpushed.trans pushed.spends_fetch).load _

theorem spends_leave : Spends p p.leave 4 :=
  (p.spends_peekStack.trans (spends_pullPc _)).trans (spends_fetch _)

theorem spends_leaveInterrupt : Spends p p.leaveInterrupt 4 :=
  (p.spends_pull .status).trans (spends_pullPc _)

theorem spends_jumpThrough (vector : UInt16) : Spends p (p.jumpThrough vector) 2 :=
  (p.spends_peek _).trans (spends_peek _ _)

theorem spends_interrupt : Spends p p.interrupt 3 := by
  let fetched := p.fetch
  let flagged := { fetched with
    registers := { fetched.registers with flags := { fetched.registers.flags with b := true } } }
  let pushed := flagged.pushWord flagged.registers.pc
  let stacked := pushed.push pushed.registers.flags.toByte
  have hflagged : Spends p flagged 1 := p.spends_fetch.load _
  have hpushed : Spends p pushed 1 := hflagged.trans (flagged.spends_pushWord _)
  have hstacked : Spends p stacked 1 := hpushed.trans (pushed.spends_push _)
  let masked := { stacked with
    registers := { stacked.registers with flags := { stacked.registers.flags with i := true } } }
  have hmasked : Spends p masked 1 := hstacked.load _
  exact hmasked.trans (masked.spends_jumpThrough 0xFFFE)

/-- A jump ends with the one read that is not announced. -/
theorem jump_eq_land (mode : AddressingMode) :
    ∃ q target, Spends p q (if mode = .indirect then 4 else 2) ∧ p.jump mode = q.land target := by
  cases mode with
  | indirect =>
    exact ⟨_, _, (p.spends_fetchPair.trans (spends_peek _ _)).trans (spends_peek _ _), rfl⟩
  | _ => exact ⟨_, _, p.spends_fetchPair, rfl⟩

/-- Reads that an instruction always makes behind the one of its opcode. -/
def reads (operation : Operation) (mode : AddressingMode) : Nat :=
  match operation with
  | .read _ | .store _ | .modify _ => operandReads mode
  | .internal _ | .push _ => 0
  | .branch .. => 1
  | .pull _ => 2
  | .jump => if mode = .indirect then 4 else 2
  | .call | .interrupt => 3
  | .leave | .leaveInterrupt => 4

/-- Reads that it makes on top of them. -/
def extraReads {β : Type} [Bus β] (p : Processor β) (operation : Operation)
    (mode : AddressingMode) : Nat :=
  match operation with
  | .read _ | .store _ | .modify _ => (p.crossesPage mode).toNat
  | .branch flag on => (p.registers.flags.get flag == on).toNat
  | _ => 0

/-- The surcharge that it runs up. -/
def charged {β : Type} [Bus β] (p : Processor β) (operation : Operation) (mode : AddressingMode) :
    Nat :=
  match operation with
  | .read _ | .store _ | .modify _ => (p.crossesPage mode).toNat
  | .branch flag on => p.branchCycles (p.registers.flags.get flag == on)
  | _ => 0

theorem operand_charged (hfresh : p.surcharge = 0) (mode : AddressingMode) :
    (p.readOperand mode).surcharge.toNat = (p.crossesPage mode).toNat := by
  rw [(p.spends_readOperand mode).2, hfresh]
  cases p.crossesPage mode <;> rfl

/-- What executing an operation announces, and the one access that a jump makes behind it. -/
theorem execute_accounts (hfresh : p.surcharge = 0) (operation : Operation)
    (mode : AddressingMode) :
    ∃ q tail, Spends p q (reads operation mode + p.extraReads operation mode) ∧
      (tail = [] ∨ operation = .jump ∧ ∃ address value, tail = [.silent address value]) ∧
      (p.execute operation mode).bus.events =
        q.bus.events ++ tail.flatMap BusAccess.events ∧
      (p.execute operation mode).signalled = q.signalled ∧
      (p.execute operation mode).surcharge.toNat = p.charged operation mode := by
  have hnone (q : Processor (Recorder β)) :
      q.bus.events = q.bus.events ++ ([] : List BusAccess).flatMap BusAccess.events := by simp
  have hkept {q : Processor (Recorder β)} (h : q.surcharge = p.surcharge) :
      q.surcharge.toNat = 0 := by rw [h, hfresh]; rfl
  have hoperand := (p.spends_readOperand mode).1
  have hcharged := operand_charged p hfresh mode
  cases operation with
  | read operation => exact ⟨_, [], hoperand, .inl rfl, hnone _, rfl, hcharged⟩
  | store source =>
    have hstored := hoperand.trans (spends_poke _ (p.readOperand mode).address
      (source.value (p.readOperand mode).registers))
    exact ⟨_, [], hstored, .inl rfl, hnone _, rfl, hcharged⟩
  | modify operation =>
    let found := p.readOperand mode
    let result := operation.apply found.registers found.latch
    have hstored := hoperand.trans
      (spends_poke { found with registers := result.2 } found.address result.1)
    exact ⟨_, [], hstored, .inl rfl, hnone _, rfl, hcharged⟩
  | internal operation => exact ⟨p, [], .refl p, .inl rfl, hnone _, rfl, hkept rfl⟩
  | push item =>
    exact ⟨_, [], p.spends_push _, .inl rfl, hnone _, rfl, hkept (p.push_surcharge _)⟩
  | pull item => exact ⟨_, [], p.spends_pull item, .inl rfl, hnone _, rfl, hkept (p.pull_surcharge item)⟩
  | branch flag on =>
    obtain ⟨hspends, hsurcharge⟩ := p.spends_branch hfresh (p.registers.flags.get flag == on)
    exact ⟨_, [], hspends, .inl rfl, hnone _, rfl, hsurcharge⟩
  | jump =>
    obtain ⟨q, target, hspends, hland⟩ := p.jump_eq_land mode
    have hexecute : p.execute .jump mode = q.land target := hland
    refine ⟨q, [.silent target (q.land target).latch], hspends, .inr ⟨rfl, _, _, rfl⟩, ?_, ?_, ?_⟩
    · rw [hexecute]
      rfl
    · rw [hexecute]
      rfl
    · exact hkept (p.jump_surcharge mode)
  | call => exact ⟨_, [], p.spends_call, .inl rfl, hnone _, rfl, hkept p.call_surcharge⟩
  | leave => exact ⟨_, [], p.spends_leave, .inl rfl, hnone _, rfl, hkept p.leave_surcharge⟩
  | leaveInterrupt =>
    exact ⟨_, [], p.spends_leaveInterrupt, .inl rfl, hnone _, rfl, hkept p.leaveInterrupt_surcharge⟩
  | interrupt =>
    exact ⟨_, [], p.spends_interrupt, .inl rfl, hnone _, rfl, hkept p.interrupt_surcharge⟩

/-! ## The table -/

/-- The undocumented instructions that read an absolute operand indexed with X and drop it.  The table has
them cost the same on every page. -/
def droppingOpcodes : List UInt8 :=
  [0x1C, 0x3C, 0x5C, 0x7C, 0xDC, 0xFC]

/-- The modes that index an operand beyond page zero. -/
def isIndexed : AddressingMode → Bool
  | .absoluteX | .absoluteY | .indirectY => true
  | _ => false

theorem isIndexed_of_crossesPage {β : Type} [Bus β] {p : Processor β} {mode : AddressingMode}
    (h : p.crossesPage mode = true) : isIndexed mode = true := by
  cases mode with
  | absoluteX | absoluteY | indirectY => rfl
  | _ => exact absurd h Bool.false_ne_true

/-- The cycles that the table bills cover the reads that an instruction makes.  An operand that crosses a page
is billed, or there is room for its second read, or it is dropped. -/
def covers (instruction : Instruction) (drops : Bool) (operation : Operation) : Bool :=
  let cycles := instruction.cycles.toNat
  let count := 1 + reads operation instruction.mode
  cycles ≤ 8 && count ≤ cycles &&
    match operation with
    | .branch .. => instruction.extra == .branch
    | .read _ | .store _ | .modify _ =>
      instruction.extra != .branch &&
        if drops then instruction.extra == .fixed && count == cycles
        else instruction.extra == .pageCross || !isIndexed instruction.mode || count < cycles
    | _ => !isIndexed instruction.mode

theorem covers_of_operation {opcode : UInt8} {operation : Operation}
    (h : (Instruction.decode opcode).mnemonic.operation = some operation) :
    covers (Instruction.decode opcode) (droppingOpcodes.contains opcode) operation = true := by
  have hall := forall_byte (p := fun opcode ↦ (Instruction.decode opcode).mnemonic.operation.all
    (covers (Instruction.decode opcode) (droppingOpcodes.contains opcode)) = true)
    (by decide +kernel) opcode
  simpa [h] using hall

/-- Cycles that an instruction takes on top of those of its opcode, its opcode having been fetched. -/
def surplus {β : Type} [Bus β] (p : Processor β) (operation : Operation)
    (instruction : Instruction) : Nat :=
  match operation with
  | .branch flag on => p.branchCycles (p.registers.flags.get flag == on)
  | _ =>
    if p.crossesPage instruction.mode &&
        (instruction.extra == .pageCross || droppingOpcodes.contains p.opcode) then 1 else 0

theorem branchCycles_bounds {β : Type} [Bus β] (p : Processor β) (taken : Bool) :
    taken.toNat ≤ p.branchCycles taken ∧ p.branchCycles taken ≤ 2 := by
  cases taken with
  | false => exact ⟨Nat.le_refl 0, Nat.zero_le 2⟩
  | true =>
    simp only [branchCycles, if_true, Bool.toNat_true]
    split <;> decide

theorem charged_le {β : Type} [Bus β] (p : Processor β) (operation : Operation)
    (mode : AddressingMode) : p.charged operation mode ≤ 2 := by
  have hcross : (p.crossesPage mode).toNat ≤ 1 := Bool.toNat_le _
  cases operation with
  | read | store | modify => exact Nat.le_succ_of_le hcross
  | branch flag on => exact (p.branchCycles_bounds _).2
  | _ => exact Nat.zero_le 2

omit [Bus β] in
theorem cost_eq {p : Processor β} {instruction : Instruction} (hcycles : instruction.cycles.toNat ≤ 8)
    (hsurcharge : p.surcharge.toNat ≤ 2) :
    p.cost instruction = instruction.cycles.toNat +
      if instruction.extra = .fixed then 0 else p.surcharge.toNat := by
  have hbilled : (instruction.extra.billed p.surcharge).toNat =
      if instruction.extra = .fixed then 0 else p.surcharge.toNat := by
    cases instruction.extra <;> rfl
  rw [cost, UInt8.toNat_add, hbilled]
  split <;> omega

theorem cost_of_charged {β : Type} [Bus β] {p q : Processor β} {operation : Operation}
    {instruction : Instruction} {drops : Bool} (hcovers : covers instruction drops operation = true)
    (hsurcharge : q.surcharge.toNat = p.charged operation instruction.mode) :
    q.cost instruction = instruction.cycles.toNat +
      if instruction.extra = .fixed then 0 else p.charged operation instruction.mode := by
  have hcycles : instruction.cycles.toNat ≤ 8 := by
    simp only [covers, Bool.and_eq_true, decide_eq_true_eq] at hcovers
    exact hcovers.1.1
  have hcharged : q.surcharge.toNat ≤ 2 := hsurcharge ▸ p.charged_le operation instruction.mode
  rw [cost_eq hcycles hcharged, hsurcharge]

/-- The announced reads come to the cost of the table or fall short of it, but for the operands that are
dropped. -/
theorem cost_accounts {β : Type} [Bus β] {p : Processor β} {operation : Operation}
    {instruction : Instruction}
    (hcovers : covers instruction (droppingOpcodes.contains p.opcode) operation = true) :
    let announced := 1 + (reads operation instruction.mode + p.extraReads operation instruction.mode)
    let cost := instruction.cycles.toNat +
      if instruction.extra = .fixed then 0 else p.charged operation instruction.mode
    announced + (cost - announced) = instruction.cycles.toNat + p.surplus operation instruction ∧
      (droppingOpcodes.contains p.opcode = false → announced ≤ cost) := by
  intro announced cost
  simp only [covers, Bool.and_eq_true, decide_eq_true_eq] at hcovers
  obtain ⟨⟨-, hcount⟩, hrest⟩ := hcovers
  cases operation with
  | read | store | modify =>
    simp only [announced, cost, extraReads, charged, surplus]
    rcases hcross : p.crossesPage instruction.mode with _ | _
    · simp only [Bool.toNat_false, Bool.false_and, Bool.false_eq_true, if_false, ite_self]
      omega
    · have hindexed := isIndexed_of_crossesPage hcross
      simp only [Bool.and_eq_true, bne_iff_ne, hindexed, Bool.not_true, Bool.or_false] at hrest
      obtain ⟨hbranch, hextra⟩ := hrest
      simp only [Bool.toNat_true, Bool.true_and]
      rcases hdrops : droppingOpcodes.contains p.opcode with _ | _
      · simp only [hdrops, Bool.false_eq_true, if_false, Bool.or_eq_true, beq_iff_eq,
          decide_eq_true_eq] at hextra ⊢
        rcases hkind : instruction.extra with _ | _ | _
        · have hroom : 1 + reads _ instruction.mode < instruction.cycles.toNat :=
            hextra.resolve_left (by rw [hkind]; decide)
          simp only [↓reduceIte, Nat.add_zero, reduceCtorEq, or_self, forall_const]
          omega
        · simp only [reduceCtorEq, ↓reduceIte, or_false, forall_const]
          omega
        · exact absurd hkind hbranch
      · simp only [hdrops, if_true, Bool.and_eq_true, beq_iff_eq] at hextra
        obtain ⟨hfixed, hfull⟩ := hextra
        simp only [hfixed, Bool.or_true, if_true, Bool.true_eq_false, false_implies, and_true]
        omega
  | branch flag on =>
    have hextra : instruction.extra = .branch := beq_iff_eq.mp hrest
    have hbounds := (p.branchCycles_bounds (p.registers.flags.get flag == on)).1
    simp only [announced, cost, extraReads, charged, surplus, hextra, reads, reduceCtorEq,
      if_false] at hcount ⊢
    omega
  | _ =>
    have hcross : p.crossesPage instruction.mode = false := by
      rcases hcross : p.crossesPage instruction.mode with _ | _
      · rfl
      · rw [isIndexed_of_crossesPage hcross] at hrest
        exact absurd hrest Bool.false_ne_true
    simp only [announced, cost, extraReads, charged, surplus, ite_self, hcross, Bool.false_and,
      Bool.false_eq_true, if_false]
    omega

/-! ## Steps -/

theorem settle_accounts (cost : Nat) :
    (p.settle cost).bus.events = p.bus.events ++ lump (cost - p.signalled) ∧
      (p.settle cost).signalled = p.signalled + (cost - p.signalled) := by
  by_cases hrest : cost - p.signalled = 0
  · simp [settle, lump, hrest]
  · simp only [settle, if_neg hrest, lump, and_true]
    rfl

theorem crossesPage_forget (mode : AddressingMode) :
    p.forget.crossesPage mode = p.crossesPage mode := by
  cases mode <;> rfl

theorem surplus_forget (operation : Operation) (instruction : Instruction) :
    p.forget.surplus operation instruction = p.surplus operation instruction := by
  cases operation with
  | branch flag on => rfl
  | _ =>
    simp only [surplus, crossesPage_forget]
    rfl

/-- The record of a whole instruction before its cost is settled. -/
theorem fetch_execute_accounts (hidle : p.signalled = 0) (operation : Operation)
    (mode : AddressingMode) :
    let fetched := p.fetchOpcode
    let done := fetched.execute operation mode
    let count := 1 + (reads operation mode + fetched.extraReads operation mode)
    ∃ accesses : List BusAccess,
      done.bus.events = p.bus.events ++ accesses.flatMap BusAccess.events ∧
      announcedReads accesses = count ∧ done.signalled = count ∧
      done.surcharge.toNat = fetched.charged operation mode ∧
      (∀ access ∈ accesses.dropLast, access.isSilent = false) ∧
      ∀ access ∈ accesses, access.isSilent → operation = .jump := by
  intro fetched done count
  have hfetch : Spends p fetched 1 := p.spends_fetch
  obtain ⟨q, tail, hspends, htail, hevents, hsignalled, hsurcharge⟩ :=
    fetched.execute_accounts rfl operation mode
  obtain ⟨accesses, hloud, hcount, hrecord, htotal⟩ := hfetch.trans hspends
  refine ⟨accesses ++ tail, ?_, ?_, ?_, hsurcharge, ?_, ?_⟩
  · rw [hevents, hrecord, List.flatMap_append, List.append_assoc]
  · rw [announcedReads_append, hcount]
    rcases htail with rfl | ⟨-, address, value, rfl⟩ <;> rfl
  · rw [hsignalled, htotal, hidle, Nat.zero_add]
  · intro access hmem
    rcases htail with rfl | ⟨-, address, value, rfl⟩
    · rw [List.append_nil] at hmem
      exact hloud access ((List.dropLast_subset accesses) hmem)
    · rw [List.dropLast_concat] at hmem
      exact hloud access hmem
  · intro access hmem hsilent
    rcases htail with rfl | ⟨hjump, -⟩
    · rw [List.append_nil] at hmem
      exact absurd hsilent (Bool.eq_false_iff.mp (hloud access hmem))
    · exact hjump

/-- The two counts of the cycles of an instruction agree, whatever the bus answers.  A step returns the cycles
that it has reported, which are those that the table bills for its opcode and, for an operand on another page
or a branch that is taken, the surplus.  Its record is a list of accesses and behind them what was left to
report; every access happens at the total of the reads announced by then, and the only one that may be
neither announced nor a write is the last one of a jump.  Unless the opcode is one of six that drop their
operand, the announced reads never exceed what is billed. -/
theorem step_cycles {β : Type} [Bus β] (p : Processor β) (hidle : p.signalled = 0)
    {operation : Operation}
    (hoperation : (Instruction.decode p.fetchOpcode.opcode).mnemonic.operation = some operation) :
    let instruction := Instruction.decode p.fetchOpcode.opcode
    let cycles := instruction.cycles.toNat + p.fetchOpcode.surplus operation instruction
    let done := p.fetchOpcode.execute operation instruction.mode
    let events := p.record.step.2.bus.events
    ∃ accesses : List BusAccess,
      p.step = (.ok cycles, p.record.step.2.forget) ∧
      totalCycles events = cycles ∧
      done.signalled = announcedReads accesses ∧
      (p.fetchOpcode.opcode ∉ droppingOpcodes → done.signalled ≤ done.cost instruction) ∧
      events = accesses.flatMap BusAccess.events ++ lump (cycles - announcedReads accesses) ∧
      (∀ before access after, accesses = before ++ access :: after → ∀ start,
        (stamped start events)[before.length]? =
          some (start + announcedReads (before ++ [access]), access.event)) ∧
      (∀ access ∈ accesses.dropLast, access.isSilent = false) ∧
      ∀ access ∈ accesses, access.isSilent → operation = .jump := by
  intro instruction cycles done events
  have hrecorded : (Instruction.decode p.record.fetchOpcode.opcode).mnemonic.operation =
      some operation := hoperation
  let fetched := p.record.fetchOpcode
  let executed := fetched.execute operation instruction.mode
  obtain ⟨accesses, hevents, hcount, hsignalled, hsurcharge, hloud, hsilent⟩ :=
    p.record.fetch_execute_accounts hidle operation instruction.mode
  have hcovers := covers_of_operation hrecorded
  have hcost : executed.cost instruction = instruction.cycles.toNat +
      if instruction.extra = .fixed then 0 else fetched.charged operation instruction.mode :=
    cost_of_charged hcovers hsurcharge
  have hannounced : executed.signalled =
      1 + (reads operation instruction.mode + fetched.extraReads operation instruction.mode) :=
    hsignalled
  obtain ⟨hbalance, hroom⟩ := cost_accounts hcovers
  have hcycles : executed.signalled + (executed.cost instruction - executed.signalled) = cycles := by
    have hsurplus : fetched.surplus operation instruction =
        p.fetchOpcode.surplus operation instruction :=
      (surplus_forget fetched operation instruction).symm
    rw [hannounced, hcost]
    calc
      _ = instruction.cycles.toNat + fetched.surplus operation instruction := hbalance
      _ = cycles := by rw [hsurplus]
  obtain ⟨hrecord, htotal⟩ := executed.settle_accounts (executed.cost instruction)
  have hstep : p.record.step = (.ok (executed.settle (executed.cost instruction)).signalled,
      (executed.settle (executed.cost instruction)).retire) := step_of_operation hrecorded
  have hreads : announcedReads accesses = executed.signalled := hcount.trans hannounced.symm
  have hleft : executed.cost instruction - executed.signalled = cycles - announcedReads accesses := by
    rw [hreads, ← hcycles, Nat.add_sub_cancel_left]
  have htold : events = accesses.flatMap BusAccess.events ++
      lump (cycles - announcedReads accesses) := by
    change p.record.step.2.bus.events = _
    rw [hstep, ← hleft]
    exact hrecord.trans (congrArg (· ++ _) hevents)
  have hdone : executed.forget = done := forget_execute fetched operation instruction.mode
  refine ⟨accesses, ?_, ?_, ?_, ?_, htold, ?_, hloud, hsilent⟩
  · have hforget := forget_step p.record
    rw [forget_record, hstep, htotal, hcycles] at hforget
    rw [hforget, hstep]
  · rw [htold, totalCycles_append, totalCycles_events, totalCycles_lump, ← hleft, hreads, hcycles]
  · rw [← hdone, hreads]
    rfl
  · intro hkeep
    have hfits : executed.signalled ≤ executed.cost instruction := by
      have hnot : droppingOpcodes.contains p.fetchOpcode.opcode = false := by simpa using hkeep
      rw [hannounced, hcost]
      exact hroom hnot
    rw [← hdone]
    exact hfits
  · intro before access after hsplit start
    rw [htold, hsplit]
    exact stamped_events start before after access _

/-- A load that is indexed across a page: four cycles by the table, and one for the second read. -/
theorem step_cycles_of_crossing :
    let memory : FlatMemory := { bytes := ⟨#[0xBD, 0xFF, 0x00]⟩ }
    let p : Processor FlatMemory := { registers := { x := 1 }, bus := memory }
    p.step = (.ok 5, p.record.step.2.forget) ∧ totalCycles p.record.step.2.bus.events = 5 ∧
      ∃ accesses : List BusAccess, p.record.step.2.bus.events =
        accesses.flatMap BusAccess.events ++ lump (5 - announcedReads accesses) := by
  intro memory p
  obtain ⟨accesses, hstep, htotal, -, -, hevents, -⟩ :=
    @step_cycles FlatMemory _ p rfl (.read .loadA) (by decide +kernel)
  have hcycles : (Instruction.decode p.fetchOpcode.opcode).cycles.toNat +
      p.fetchOpcode.surplus (.read .loadA) (Instruction.decode p.fetchOpcode.opcode) = 5 := by
    decide +kernel
  rw [hcycles] at hstep htotal hevents
  exact ⟨hstep, htotal, accesses, hevents⟩

end Processor

end Vcs
