import Vcs.Proofs.Processor.Recorder
import Vcs.Proofs.Processor.Simulation

/-!
# Replaying a Record

A bus that is told once more what a record says ends up in the state it had then.  So a run of the processor
is a list of moments, each of them an event and the bus that it met, and what every event keeps holds at every
moment of a run.  Of a single instruction more is known: it reads, then it writes, then it reads again.  Between
its writes no time is announced, and a bus that asks for a stop while it is being written to is written to at
no other cycle before the processor stops.
-/

namespace Vcs

variable {β : Type} [Bus β]

/-- What an event does to a bus. -/
def BusEvent.apply (b : β) : BusEvent → β
  | elapse cycles => Bus.elapse cycles b
  | read address _ => Bus.read address b
  | write address value => Bus.write address value b

/-- Tells a bus everything that a record says. -/
def replay (b : β) (events : List BusEvent) : β :=
  events.foldl BusEvent.apply b

/-- An event and the bus that it meets. -/
structure Moment (β : Type) where
  bus : β
  event : BusEvent

/-- The bus that an event leaves. -/
def Moment.after (moment : Moment β) : β :=
  moment.event.apply moment.bus

/-- The moments of a record that begins with some bus. -/
def moments (b : β) : List BusEvent → List (Moment β)
  | [] => []
  | event :: rest => ⟨b, event⟩ :: moments (event.apply b) rest

theorem replay_append (b : β) (first second : List BusEvent) :
    replay b (first ++ second) = replay (replay b first) second :=
  List.foldl_append

theorem moments_append (b : β) (first second : List BusEvent) :
    moments b (first ++ second) = moments b first ++ moments (replay b first) second := by
  induction first generalizing b with
  | nil => rfl
  | cons event rest ih => exact congrArg (_ :: ·) (ih (event.apply b))

theorem map_event_moments (b : β) (events : List BusEvent) :
    (moments b events).map Moment.event = events := by
  induction events generalizing b with
  | nil => rfl
  | cons event rest ih => exact congrArg (event :: ·) (ih (event.apply b))

theorem event_mem_of_mem_moments {b : β} {events : List BusEvent} {moment : Moment β}
    (h : moment ∈ moments b events) : moment.event ∈ events := by
  rw [← map_event_moments b events]
  exact List.mem_map_of_mem h

/-- A statement about the moments so far and the bus holds at every further moment and behind the last. -/
def Along (P : List (Moment β) → β → Prop) (past : List (Moment β)) :
    (run : List (Moment β)) → (last : β) → Prop
  | [], last => P past last
  | moment :: rest, last => P past moment.bus ∧ Along P (past ++ [moment]) rest last

namespace Along

variable {P : List (Moment β) → β → Prop} {past first second : List (Moment β)} {b c : β}

omit [Bus β] in
theorem last (h : Along P past first b) : P (past ++ first) b := by
  induction first generalizing past with
  | nil => rwa [List.append_nil]
  | cons moment rest ih =>
    have hrest := ih h.2
    rwa [List.append_assoc] at hrest

omit [Bus β] in
theorem getElem? (h : Along P past first b) {count : Nat} {moment : Moment β}
    (hmoment : first[count]? = some moment) : P (past ++ first.take count) moment.bus := by
  induction first generalizing past count with
  | nil => exact absurd hmoment nofun
  | cons head rest ih =>
    cases count with
    | zero =>
      obtain rfl : head = moment := by simpa using hmoment
      rw [List.take_zero, List.append_nil]
      exact h.1
    | succ count =>
      have hrest := ih h.2 (by simpa using hmoment)
      rwa [List.append_assoc] at hrest

omit [Bus β] in
theorem append (hfirst : Along P past first b)
    (hsecond : P (past ++ first) b → Along P (past ++ first) second c) :
    Along P past (first ++ second) c := by
  induction first generalizing past with
  | nil =>
    rw [List.append_nil] at hsecond
    exact hsecond hfirst
  | cons moment rest ih =>
    refine ⟨hfirst.1, ih hfirst.2 ?_⟩
    rwa [List.append_assoc]

omit [Bus β] in
theorem mono {Q : List (Moment β) → β → Prop} (h : Along P past first b)
    (himp : ∀ past b, P past b → Q past b) : Along Q past first b := by
  induction first generalizing past with
  | nil => exact himp _ _ h
  | cons moment rest ih => exact ⟨himp _ _ h.1, ih h.2⟩

omit [Bus β] in
theorem map_last (h : Along P past first b)
    (himp : P (past ++ first) b → P (past ++ first) c) : Along P past first c := by
  rw [← List.append_nil first]
  exact h.append himp

/-- What one event preserves is preserved along a record. -/
theorem of_moments (hstep : ∀ past b event, P past b → P (past ++ [⟨b, event⟩]) (event.apply b))
    (hstart : P past b) (events : List BusEvent) :
    Along P past (moments b events) (replay b events) := by
  induction events generalizing past b with
  | nil => exact hstart
  | cons event rest ih => exact ⟨hstart, ih (hstep past b event hstart)⟩

end Along

theorem Bus.Keeps.apply {I : β → Prop} (h : Bus.Keeps I) {b : β} (hb : I b) (event : BusEvent) :
    I (event.apply b) := by
  cases event with
  | elapse cycles => exact h.elapse cycles hb
  | read address value => exact h.read address hb
  | write address value => exact h.write address value hb

theorem Bus.Keeps.replay {I : β → Prop} (h : Bus.Keeps I) {b : β} (hb : I b)
    (events : List BusEvent) : I (replay b events) := by
  induction events generalizing b with
  | nil => exact hb
  | cons event rest ih => exact ih (h.apply hb event)

theorem Bus.Keeps.moments {I : β → Prop} (h : Bus.Keeps I) {b : β} (hb : I b)
    {events : List BusEvent} {moment : Moment β} (hmoment : moment ∈ moments b events) :
    I moment.bus := by
  induction events generalizing b with
  | nil => exact absurd hmoment List.not_mem_nil
  | cons event rest ih =>
    rcases List.mem_cons.mp hmoment with rfl | hrest
    · exact hb
    · exact ih (h.apply hb event) hrest

namespace Processor

/-- The record of one instruction. -/
def transcript (p : Processor β) : List BusEvent :=
  p.record.step.2.bus.events

/-- The bus of a recorder is what the replay of its record comes to. -/
theorem keeps_replay (b : β) : Bus.Keeps fun r : Recorder β ↦ r.bus = replay b r.events := by
  have hgrow {r : Recorder β} (h : r.bus = replay b r.events) (event : BusEvent) :
      event.apply r.bus = replay b (r.events ++ [event]) := by
    rw [replay_append, ← h]
    rfl
  exact {
    read := fun address h ↦ hgrow h (.read address _)
    write := fun address value h ↦ hgrow h (.write address value)
    elapse := fun cycles h ↦ hgrow h (.elapse cycles) }

theorem step_bus (p : Processor β) : p.step.2.bus = replay p.bus p.transcript := by
  have hrecord := step_keeps (keeps_replay p.bus) (p := p.record) rfl
  have hforget := forget_step p.record
  rw [forget_record] at hforget
  rw [hforget]
  exact hrecord

/-- What a reset tells the bus. -/
def resetTranscript (p : Processor β) : List BusEvent :=
  p.record.reset.bus.events

theorem reset_bus (p : Processor β) : p.reset.bus = replay p.bus p.resetTranscript := rfl

/-! ## The parts of an instruction -/

end Processor

/-- Whether an event is a write. -/
def BusEvent.isWrite : BusEvent → Bool
  | write .. => true
  | elapse _ | read .. => false

namespace Processor

/-- On its way from `p` to `q` the processor tells the bus nothing but writes, or no writes at all. -/
def Emits {β : Type} (writes : Bool) (p q : Processor (Recorder β)) : Prop :=
  ∃ events, q.bus.events = p.bus.events ++ events ∧ ∀ event ∈ events, event.isWrite = writes

namespace Emits

variable {writes : Bool} {p q r : Processor (Recorder β)}

omit [Bus β] in
theorem refl (writes : Bool) (p : Processor (Recorder β)) : Emits writes p p :=
  ⟨[], by simp, by simp⟩

omit [Bus β] in
theorem trans (hfirst : Emits writes p q) (hsecond : Emits writes q r) : Emits writes p r := by
  obtain ⟨before, hbefore, hall⟩ := hfirst
  obtain ⟨after, hafter, hrest⟩ := hsecond
  refine ⟨before ++ after, by rw [hafter, hbefore, List.append_assoc], ?_⟩
  intro event hmem
  rcases List.mem_append.mp hmem with h | h
  · exact hall event h
  · exact hrest event h

end Emits

variable (p : Processor (Recorder β))

theorem peek_events (address : UInt16) :
    (p.peek address).bus.events =
      p.bus.events ++ [.elapse 1, .read address (p.peek address).latch] := by
  change (p.bus.events ++ [.elapse 1]) ++ [.read address _] = _
  rw [List.append_assoc]
  rfl

theorem emits_peek (address : UInt16) : Emits false p (p.peek address) :=
  ⟨_, p.peek_events address, by simp [BusEvent.isWrite]⟩

theorem emits_peekUnsignalled (address : UInt16) : Emits false p (p.peekUnsignalled address) :=
  ⟨[.read address (p.peekUnsignalled address).latch], rfl, by simp [BusEvent.isWrite]⟩

theorem emits_poke (address : UInt16) (value : UInt8) : Emits true p (p.poke address value) :=
  ⟨[.write address value], rfl, by simp [BusEvent.isWrite]⟩

theorem emits_fetch : Emits false p p.fetch :=
  p.emits_peek p.registers.pc

theorem emits_readAt (address : UInt16) : Emits false p (p.readAt address) :=
  { p with address := address }.emits_peek address

theorem emits_fetchPair : Emits false p p.fetchPair.2 :=
  p.emits_fetch.trans p.fetch.emits_fetch

theorem emits_peekPair (pointer : UInt8) : Emits false p (p.peekPair pointer).2 :=
  (p.emits_peek _).trans (emits_peek _ _)

theorem emits_pushWord (word : UInt16) : Emits true p (p.pushWord word) :=
  (p.emits_poke _ _).trans (emits_poke _ _ _)

theorem emits_readIndexed (base : UInt16) (index : UInt8) : Emits false p (p.readIndexed base index) := by
  unfold readIndexed
  dsimp only
  split
  · exact (emits_peek { p with surcharge := 1 } _).trans (emits_readAt _ _)
  · exact p.emits_readAt _

theorem emits_readOperand (mode : AddressingMode) : Emits false p (p.readOperand mode) := by
  cases mode with
  | immediate | relative => exact emits_fetch _
  | zeroPage => exact p.emits_fetch.trans (emits_readAt _ _)
  | zeroPageX | zeroPageY => exact (p.emits_fetch.trans (emits_peek _ _)).trans (emits_readAt _ _)
  | absolute => exact p.emits_fetchPair.trans (emits_readAt _ _)
  | absoluteX | absoluteY => exact p.emits_fetchPair.trans (emits_readIndexed _ _ _)
  | indirectX => exact (p.emits_fetch.trans (emits_peekPair _ _)).trans (emits_readAt _ _)
  | indirectY => exact (p.emits_fetch.trans (emits_peekPair _ _)).trans (emits_readIndexed _ _ _)
  | indirect | implied | invalid => exact .refl false p

theorem emits_jump (mode : AddressingMode) : Emits false p (p.jump mode) := by
  cases mode with
  | indirect =>
    exact ((p.emits_fetchPair.trans (emits_peek _ _)).trans (emits_peek _ _)).trans
      (emits_peekUnsignalled _ _)
  | _ => exact p.emits_fetchPair.trans (emits_peekUnsignalled _ _)

theorem emits_branch (taken : Bool) : Emits false p (p.branch taken) := by
  have hoperand := p.emits_readOperand .relative
  cases taken with
  | false => exact hoperand
  | true => exact hoperand.trans (emits_peek _ _)

theorem emits_pullPc : Emits false p p.pullPc :=
  (emits_peek { p with registers := _ } _).trans (emits_peek { p.pop with registers := _ } _)

theorem emits_pull (item : StackItem) : Emits false p (p.pull item) :=
  (p.emits_peek _).trans (emits_peek { p.peekStack with registers := _ } _)

theorem emits_settle (cost : Nat) : Emits false p (p.settle cost) := by
  by_cases hrest : cost - p.signalled = 0
  · rw [settle, if_pos hrest]
    exact .refl false p
  · rw [settle, if_neg hrest]
    exact ⟨[.elapse (cost - p.signalled)], rfl, by simp [BusEvent.isWrite]⟩

/-- Executing an operation is reading, writing and reading. -/
theorem execute_parts (operation : Operation) (mode : AddressingMode) :
    ∃ q r, Emits false p q ∧ Emits true q r ∧ Emits false r (p.execute operation mode) := by
  have hoperand := p.emits_readOperand mode
  cases operation with
  | read operation => exact ⟨_, _, hoperand, .refl true _, .refl false _⟩
  | store source => exact ⟨_, _, hoperand, emits_poke _ _ _, .refl false _⟩
  | modify operation =>
    exact ⟨_, _, hoperand, emits_poke { p.readOperand mode with registers := _ } _ _, .refl false _⟩
  | internal operation => exact ⟨p, p, .refl false p, .refl true p, .refl false p⟩
  | push item => exact ⟨p, _, .refl false p, p.emits_poke _ _, .refl false _⟩
  | pull item => exact ⟨_, _, p.emits_pull item, .refl true _, .refl false _⟩
  | branch flag on => exact ⟨_, _, p.emits_branch _, .refl true _, .refl false _⟩
  | jump => exact ⟨_, _, p.emits_jump mode, .refl true _, .refl false _⟩
  | call =>
    let stacked := p.fetch.peekStack
    exact ⟨stacked, stacked.pushWord stacked.registers.pc, p.emits_fetch.trans (emits_peek _ _),
      stacked.emits_pushWord _, emits_fetch _⟩
  | leave => exact ⟨_, _, ((p.emits_peek _).trans (emits_pullPc _)).trans (emits_fetch _),
      .refl true _, .refl false _⟩
  | leaveInterrupt =>
    exact ⟨_, _, (p.emits_pull .status).trans (emits_pullPc _), .refl true _, .refl false _⟩
  | interrupt =>
    let fetched := p.fetch
    let flagged := { fetched with
      registers := { fetched.registers with flags := { fetched.registers.flags with b := true } } }
    let pushed := flagged.pushWord flagged.registers.pc
    let stacked := pushed.push pushed.registers.flags.toByte
    have hstacked : Emits true flagged stacked :=
      (flagged.emits_pushWord _).trans (pushed.emits_poke _ _)
    let masked := { stacked with
      registers := { stacked.registers with flags := { stacked.registers.flags with i := true } } }
    have hmasked : Emits false stacked (masked.jumpThrough 0xFFFE) :=
      (masked.emits_peek _).trans (emits_peek _ _)
    exact ⟨flagged, stacked, p.emits_fetch, hstacked, hmasked⟩

/-- An instruction writes at one stretch. -/
theorem transcript_parts (p : Processor β) :
    ∃ before writes after, p.transcript = before ++ writes ++ after ∧
      (∀ event ∈ before, event.isWrite = false) ∧ (∀ event ∈ writes, event.isWrite = true) ∧
      ∀ event ∈ after, event.isWrite = false := by
  have hfetch : Emits false p.record p.record.fetchOpcode := p.record.emits_fetch
  rcases hoperation : (Instruction.decode p.record.fetchOpcode.opcode).mnemonic.operation with
    _ | operation
  · obtain ⟨before, hbefore, hreads⟩ := hfetch
    refine ⟨before, [], [], ?_, hreads, by simp, by simp⟩
    simp only [transcript, step, hoperation, hbefore, List.append_nil]
    rfl
  · let instruction := Instruction.decode p.record.fetchOpcode.opcode
    let done := p.record.fetchOpcode.execute operation instruction.mode
    obtain ⟨q, r, hread, hwrite, hafter⟩ :=
      p.record.fetchOpcode.execute_parts operation instruction.mode
    obtain ⟨before, hbefore, hreads⟩ := hfetch.trans hread
    obtain ⟨writes, hwrites, hall⟩ := hwrite
    obtain ⟨after, hrest, hend⟩ := hafter.trans (done.emits_settle (done.cost instruction))
    refine ⟨before, writes, after, ?_, hreads, hall, hend⟩
    rw [transcript, step_of_operation hoperation]
    change (done.settle (done.cost instruction)).bus.events = _
    rw [hrest, hwrites, hbefore]
    rfl

theorem readIndexed_retired (p : Processor β) (base : UInt16) (index : UInt8) :
    (p.readIndexed base index).retired = p.retired := by
  unfold readIndexed
  split <;> rfl

theorem readOperand_retired (p : Processor β) (mode : AddressingMode) :
    (p.readOperand mode).retired = p.retired := by
  cases mode with
  | absoluteX | absoluteY | indirectY => exact readIndexed_retired _ _ _
  | _ => rfl

theorem branch_retired (p : Processor β) (taken : Bool) : (p.branch taken).retired = p.retired := by
  cases taken <;> rfl

theorem push_retired (p : Processor β) (value : UInt8) : (p.push value).retired = p.retired := rfl

theorem jumpThrough_retired (p : Processor β) (vector : UInt16) :
    (p.jumpThrough vector).retired = p.retired := rfl

theorem interrupt_retired (p : Processor β) : p.interrupt.retired = p.retired := by
  unfold interrupt
  dsimp only
  rw [jumpThrough_retired, push_retired, pushWord, push_retired, push_retired]
  rfl

theorem execute_retired (p : Processor β) (operation : Operation) (mode : AddressingMode) :
    (p.execute operation mode).retired = p.retired := by
  cases operation with
  | read | store | modify => exact p.readOperand_retired mode
  | branch flag on => exact p.branch_retired _
  | jump => cases mode <;> rfl
  | interrupt => exact p.interrupt_retired
  | _ => rfl

theorem step_retired {p next : Processor β} {cycles : Nat} (h : p.step = (.ok cycles, next)) :
    next.retired = p.retired + 1 := by
  rcases hoperation : (Instruction.decode p.fetchOpcode.opcode).mnemonic.operation with
    _ | operation
  · simp only [step, hoperation, Prod.mk.injEq, reduceCtorEq, false_and] at h
  · rw [step_of_operation hoperation, Prod.mk.injEq] at h
    obtain ⟨-, rfl⟩ := h
    have hsettle (q : Processor β) (cost : Nat) : (q.settle cost).retired = q.retired := by
      unfold settle
      dsimp only
      split <;> rfl
    exact congrArg (· + 1) ((hsettle _ _).trans (execute_retired _ _ _))

/-- A run counts the instructions that it retires, and it falls short of its budget only if the bus asks for
a stop. -/
theorem runFrom_retired {p last : Processor β} {start budget count : Nat}
    (h : p.runFrom start budget = (.ok count, last)) :
    last.retired + start = p.retired + count ∧
      (count = start + budget ∨ Bus.stopRequested last.bus = true) := by
  induction budget generalizing p start with
  | zero =>
    obtain ⟨hcount, rfl⟩ := Prod.mk.inj h
    obtain rfl := Except.ok.inj hcount
    exact ⟨rfl, .inl rfl⟩
  | succ budget ih =>
    rcases hresult : p.step with ⟨_ | cycles, next⟩
    · simp only [runFrom, hresult, Prod.mk.injEq, reduceCtorEq, false_and] at h
    · have hnext := step_retired hresult
      simp only [runFrom, hresult] at h
      split at h
      · next hstop =>
        obtain ⟨hcount, rfl⟩ := Prod.mk.inj h
        obtain rfl := Except.ok.inj hcount
        exact ⟨by omega, .inr hstop⟩
      · obtain ⟨hretired, hend⟩ := ih h
        refine ⟨by omega, hend.imp_left ?_⟩
        omega

/-- The moments of a run of at most `budget` instructions. -/
def runMoments (p : Processor β) : (budget : Nat) → List (Moment β)
  | 0 => []
  | budget + 1 =>
    moments p.bus p.transcript ++
      match p.step with
      | (.error _, _) => []
      | (.ok _, next) => if Bus.stopRequested next.bus then [] else next.runMoments budget

theorem runMoments_along {P : List (Moment β) → β → Prop}
    (hstep : ∀ past b event, P past b → P (past ++ [⟨b, event⟩]) (event.apply b))
    {past : List (Moment β)} {p : Processor β} (hstart : P past p.bus) (done budget : Nat) :
    Along P past (p.runMoments budget) (p.runFrom done budget).2.bus := by
  induction budget generalizing past p done with
  | zero => exact hstart
  | succ budget ih =>
    have hfirst := Along.of_moments hstep hstart p.transcript
    rw [← step_bus] at hfirst
    rcases hresult : p.step with ⟨result, next⟩
    rw [hresult] at hfirst
    apply hfirst.append
    intro hnext
    cases result with
    | error fault =>
      simp only [runFrom, hresult]
      exact hnext
    | ok cycles =>
      simp only [runFrom, hresult]
      split
      · exact hnext
      · exact ih hnext (done + 1)

end Processor

end Vcs
