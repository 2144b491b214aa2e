import Mathlib.Data.Nat.Digits.Defs
import Mathlib.Tactic.LinearCombination
import Vcs.Proofs.Processor.ByteArithmetic
import Vcs.Proofs.Processor.Slicing

/-!
# Arithmetic on Long Numbers

A program adds two numbers of many bytes by clearing the carry and then, from the least significant byte on,
loading a byte of the first number and adding the byte of the second to it.  It subtracts by setting the carry
and subtracting in the same manner.  Main statement: on any bus and in any addressing modes the bytes that the
accumulator goes through are the digits of the exact result, to the base of the mode, and the last carry tells
what is lost of it.  In binary mode the last overflow and negative flags are those of the long numbers in two's
complement.

The conservation law behind it is stated for a prefix of the program and for any carry that comes in: the digits
found so far and the carry account for what has been read.  A program is told by what its instructions find,
wherever they find it; code with the bytes of both numbers in it is such a program.
-/

namespace Vcs

/-- The instruction that sets the carry flag so that nothing comes in. -/
def Carrying.preparation : Carrying → Mnemonic
  | sum => .clc
  | difference => .sec

/-- When the last carry is set: a sum outgrows its digits, a difference has no need to borrow. -/
def Carrying.Carries (kind : Carrying) (modulus total : Int) : Prop :=
  match kind with
  | sum => modulus ≤ total
  | difference => 0 ≤ total

instance : (kind : Carrying) → (modulus total : Int) → Decidable (kind.Carries modulus total)
  | .sum, modulus, total => inferInstanceAs (Decidable (modulus ≤ total))
  | .difference, _, total => inferInstanceAs (Decidable (0 ≤ total))

/-- Opcode of the preparation. -/
def Carrying.prepare : Carrying → UInt8
  | sum => 0x18
  | difference => 0x38

/-- Opcode that adds the byte behind it or subtracts it. -/
def Carrying.opcode : Carrying → UInt8
  | sum => 0x69
  | difference => 0xE9

/-- Code that takes one pair of bytes after another, each byte behind its opcode. -/
def Carrying.code (kind : Carrying) : List (UInt8 × UInt8) → List UInt8
  | [] => []
  | (first, second) :: rest => 0xA9 :: first :: kind.opcode :: second :: kind.code rest

/-- A whole program for two long numbers. -/
def Carrying.program (kind : Carrying) (pairs : List (UInt8 × UInt8)) : List UInt8 :=
  kind.prepare :: kind.code pairs

/-- Totals are taken digit by digit. -/
theorem Carrying.total_append (kind : Carrying) (base first second firsts seconds : Int) :
    kind.total (first + base * firsts) (second + base * seconds) =
      kind.total first second + base * kind.total firsts seconds := by
  cases kind <;> simp only [total] <;> ring

/-- A result and a carry that together make up a total are its remainder and what is lost of it. -/
theorem Carrying.split_total (kind : Carrying) {modulus result : Nat} {out : Bool} {total : Int}
    (hlt : result < modulus) (h : (result : Int) + modulus * kind.carried out = total) :
    (result : Int) = total % modulus ∧ (out = true ↔ kind.Carries modulus total) := by
  constructor
  · rw [← h, Int.add_mul_emod_self_left]
    exact (Int.emod_eq_of_lt (by omega) (by omega)).symm
  · cases kind <;> cases out <;> simp [carried] at h <;> simp [Carries] <;> omega

/-- The number whose digits are some bytes, the least significant first. -/
def number (decimal : Bool) (bytes : List UInt8) : Nat :=
  Nat.ofDigits (digitBase decimal) (bytes.map (digit decimal))

theorem number_nil (decimal : Bool) : number decimal [] = 0 := rfl

theorem number_cons (decimal : Bool) (byte : UInt8) (rest : List UInt8) :
    number decimal (byte :: rest) = digit decimal byte + digitBase decimal * number decimal rest :=
  Nat.ofDigits_cons

theorem one_lt_digitBase (decimal : Bool) : 1 < digitBase decimal := by
  cases decimal <;> decide

theorem number_lt {decimal : Bool} {bytes : List UInt8} (h : ∀ byte ∈ bytes, IsDigit decimal byte) :
    number decimal bytes < digitBase decimal ^ bytes.length := by
  have hdigits : ∀ value ∈ bytes.map (digit decimal), value < digitBase decimal := by
    intro value hvalue
    obtain ⟨byte, hbyte, rfl⟩ := List.mem_map.mp hvalue
    exact digit_lt (h byte hbyte)
  have hlt := Nat.ofDigits_lt_base_pow_length (one_lt_digitBase decimal) hdigits
  rwa [List.length_map] at hlt

namespace Processor

variable {β : Type} [Bus β]

/-- The next instruction has some name and finds some byte as its operand. -/
def Performs (p : Processor β) (mnemonic : Mnemonic) (value : UInt8) : Prop :=
  p.instruction.mnemonic = mnemonic ∧ p.operand = value

/-- The program takes one pair of bytes after another: it loads the first byte, and adds the second or subtracts
it. -/
def WorksThrough (p : Processor β) (kind : Carrying) : List (UInt8 × UInt8) → Prop
  | [] => True
  | (first, second) :: rest =>
    p.Performs .lda first ∧ (p.stepped 1).Performs kind.mnemonic second ∧
      (p.stepped 2).WorksThrough kind rest

/-- What the accumulator holds behind each of the next pairs of instructions. -/
def results (p : Processor β) : Nat → List UInt8
  | 0 => []
  | count + 1 => (p.stepped 2).registers.a :: (p.stepped 2).results count

theorem Performs.step_load {p : Processor β} {value : UInt8} (h : p.Performs .lda value) :
    (∃ cycles, p.step.1 = .ok cycles) ∧ p.step.2.registers.a = value ∧
      p.step.2.registers.flags.c = p.registers.flags.c ∧
      p.step.2.registers.flags.d = p.registers.flags.d := by
  obtain ⟨hmnemonic, rfl⟩ := h
  have hoperation : p.instruction.mnemonic.operation = some (.read .loadA) := by rw [hmnemonic]; rfl
  refine ⟨(step_of_some hoperation).1, ?_⟩
  rw [step_registers_of_read hoperation]
  exact ⟨rfl, rfl, rfl⟩

theorem Performs.step_carrying {p : Processor β} {kind : Carrying} {value : UInt8}
    (h : p.Performs kind.mnemonic value) :
    (∃ cycles, p.step.1 = .ok cycles) ∧ p.step.2.registers.a = (kind.apply p.registers value).a ∧
      p.step.2.registers.flags = (kind.apply p.registers value).flags := by
  obtain ⟨hmnemonic, rfl⟩ := h
  exact step_of_carrying hmnemonic

/-- What a pair comes to: some registers that hold the first byte, with the carry and the mode from before. -/
theorem pair_apply {p : Processor β} {kind : Carrying} {first second : UInt8}
    (hload : p.Performs .lda first) (hwork : (p.stepped 1).Performs kind.mnemonic second) :
    ∃ r : Registers, r.a = first ∧ r.flags.c = p.registers.flags.c ∧ r.flags.d = p.registers.flags.d ∧
      (p.stepped 2).registers.a = (kind.apply r second).a ∧
      (p.stepped 2).registers.flags = (kind.apply r second).flags := by
  obtain ⟨-, hfirst, hcarry, hmode⟩ := hload.step_load
  obtain ⟨-, hresult, hflags⟩ := hwork.step_carrying
  exact ⟨(p.stepped 1).registers, hfirst, hcarry, hmode, hresult, hflags⟩

theorem stepped_pairs (p : Processor β) (count : Nat) :
    p.stepped (2 * (count + 1)) = (p.stepped 2).stepped (2 * count) := by
  rw [← stepped_add]
  congr 1
  omega

theorem WorksThrough.goes_on {p : Processor β} {kind : Carrying} {pairs : List (UInt8 × UInt8)}
    (h : p.WorksThrough kind pairs) :
    ∀ done < 2 * pairs.length, ∃ cycles, (p.stepped done).step.1 = .ok cycles := by
  induction pairs generalizing p with
  | nil => exact fun done hdone ↦ absurd hdone (Nat.not_lt_zero done)
  | cons pair rest ih =>
    obtain ⟨hload, hwork, hrest⟩ := h
    intro done hdone
    rcases done with _ | _ | done
    · exact hload.step_load.1
    · exact hwork.step_carrying.1
    · rw [Nat.add_assoc, Nat.add_comm done, stepped_add]
      exact ih hrest done (by simp only [List.length_cons] at hdone; omega)

theorem length_results (p : Processor β) (count : Nat) : (p.results count).length = count := by
  induction count generalizing p with
  | zero => rfl
  | succ count ih => exact congrArg (· + 1) (ih _)

/-- The conservation law: the digits that were found and the carry behind them account for the digits that were
read and the carry before them. -/
theorem WorksThrough.number_results {p : Processor β} {kind : Carrying} {decimal : Bool}
    {pairs : List (UInt8 × UInt8)} (h : p.WorksThrough kind pairs)
    (hmode : p.registers.flags.d = decimal)
    (hdigits : ∀ pair ∈ pairs, IsDigit decimal pair.1 ∧ IsDigit decimal pair.2) :
    let last := (p.stepped (2 * pairs.length)).registers.flags
    (number decimal (p.results pairs.length) : Int) +
          digitBase decimal ^ pairs.length * kind.carried last.c =
        kind.total (number decimal (pairs.map Prod.fst)) (number decimal (pairs.map Prod.snd)) +
          kind.carried p.registers.flags.c ∧
      ∀ byte ∈ p.results pairs.length, IsDigit decimal byte := by
  induction pairs generalizing p with
  | nil =>
    refine ⟨?_, fun byte hbyte ↦ absurd hbyte List.not_mem_nil⟩
    cases kind <;> simp [number_nil, results, Carrying.total, stepped]
  | cons pair rest ih =>
    obtain ⟨hload, hwork, hrest⟩ := h
    obtain ⟨hpair, hothers⟩ := List.forall_mem_cons.mp hdigits
    obtain ⟨r, hfirst, hcarry, hkept, hresult, hflags⟩ := pair_apply hload hwork
    have hdecimal : r.flags.d = decimal := hkept.trans hmode
    have hbyte := kind.apply_digit r pair.2 (by rw [hdecimal, hfirst]; exact hpair.1)
      (by rw [hdecimal]; exact hpair.2)
    have hpacked : IsDigit decimal (p.stepped 2).registers.a := by
      rw [hresult, ← hdecimal]
      exact kind.apply_isDigit r pair.2
    obtain ⟨htotal, hall⟩ := ih hrest (by rw [hflags, kind.apply_mode, hdecimal]) hothers
    refine ⟨?_, List.forall_mem_cons.mpr ⟨hpacked, hall⟩⟩
    rw [hdecimal, hfirst, hcarry, ← hresult, ← hflags] at hbyte
    simp only [List.length_cons, stepped_pairs, results, List.map_cons, number_cons]
    push_cast
    rw [kind.total_append]
    linear_combination hbyte + (digitBase decimal : Int) * htotal

section

variable {p : Processor β} {kind : Carrying} {pairs : List (UInt8 × UInt8)}

theorem two_dvd_pow (hpairs : pairs ≠ []) : 2 ∣ 256 ^ pairs.length :=
  (by decide : 2 ∣ 256).trans (dvd_pow_self 256 (mt List.eq_nil_of_length_eq_zero hpairs))

/-- The last negative flag is the top bit of the long result. -/
theorem WorksThrough.negative_results (h : p.WorksThrough kind pairs) (hpairs : pairs ≠ []) :
    (p.stepped (2 * pairs.length)).registers.flags.n = true ↔
      256 ^ pairs.length ≤ 2 * number false (p.results pairs.length) := by
  induction pairs generalizing p with
  | nil => exact absurd rfl hpairs
  | cons pair rest ih =>
    obtain ⟨hload, hwork, hrest⟩ := h
    rcases eq_or_ne rest [] with rfl | hlater
    · obtain ⟨r, -, -, -, hresult, hflags⟩ := pair_apply hload hwork
      have hsign : (p.stepped 2).registers.flags.n = signBit (p.stepped 2).registers.a := by
        rw [hresult, hflags, kind.apply_negative]
      simp only [List.length_singleton, Nat.mul_one, results, number_cons, number_nil, hsign,
        signBit_eq, decide_eq_true_eq]
      change _ ↔ 256 ^ 1 ≤ 2 * ((p.stepped 2).registers.a.toNat + 256 * 0)
      omega
    · have htop := le_two_mul_append (two_dvd_pow hlater) (p.stepped 2).registers.a.toNat_lt
        (number false ((p.stepped 2).results rest.length))
      rw [List.length_cons, stepped_pairs, ih hrest hlater, results, number_cons, Nat.pow_succ']
      exact htop.symm

/-- The last overflow flag tells whether the long result in two's complement has room. -/
theorem WorksThrough.overflow_results (h : p.WorksThrough kind pairs) (hpairs : pairs ≠ [])
    (hmode : p.registers.flags.d = false) :
    (p.stepped (2 * pairs.length)).registers.flags.v = true ↔ ¬FitsSigned (256 ^ pairs.length)
      (kind.total (signedOf (256 ^ pairs.length) (number false (pairs.map Prod.fst)))
          (signedOf (256 ^ pairs.length) (number false (pairs.map Prod.snd))) +
        kind.carried p.registers.flags.c) := by
  induction pairs generalizing p with
  | nil => exact absurd rfl hpairs
  | cons pair rest ih =>
    obtain ⟨hload, hwork, hrest⟩ := h
    obtain ⟨r, hfirst, hcarry, hkept, hresult, hflags⟩ := pair_apply hload hwork
    have hbinary : r.flags.d = false := hkept.trans hmode
    rcases eq_or_ne rest [] with rfl | hlater
    · have hoverflow := kind.apply_overflow r pair.2 hbinary
      rw [← hflags, hfirst, hcarry] at hoverflow
      exact hoverflow
    · let result := (p.stepped 2).registers
      have hbyte := kind.apply_digit r pair.2 (fun h ↦ by simp [hbinary] at h)
        (fun h ↦ by simp [hbinary] at h)
      rw [hbinary, hfirst, hcarry, ← hresult, ← hflags] at hbyte
      change (result.a.toNat : Int) + 256 * kind.carried result.flags.c =
        kind.total pair.1.toNat pair.2.toNat + kind.carried p.registers.flags.c at hbyte
      have heven := two_dvd_pow hlater
      -- The result of this pair lies below the exact result of the pairs behind it.
      have hexact (firsts seconds : Nat) :
          kind.total (signedOf (256 * 256 ^ rest.length) (pair.1.toNat + 256 * firsts))
              (signedOf (256 * 256 ^ rest.length) (pair.2.toNat + 256 * seconds)) +
            kind.carried p.registers.flags.c =
          result.a.toNat + 256 *
            (kind.total (signedOf (256 ^ rest.length) firsts) (signedOf (256 ^ rest.length) seconds) +
              kind.carried result.flags.c) := by
        rw [signedOf_append heven pair.1.toNat_lt, signedOf_append heven pair.2.toNat_lt,
          kind.total_append]
        linear_combination -hbyte
      have hroom := fitsSigned_append heven result.a.toNat_lt
      have hbehind := ih hrest hlater (by rw [hflags, kind.apply_mode, hbinary])
      rw [List.length_cons, stepped_pairs, hbehind, List.map_cons, List.map_cons, number_cons,
        number_cons, Nat.pow_succ', ← hroom, ← hexact]
      rfl

end

theorem step_immediate {p : Processor FlatMemory} {opcode value : UInt8} {rest : List UInt8}
    {operation : ReadOperation} (h : p.bus.Holds p.registers.pc (opcode :: value :: rest))
    (hmode : (Instruction.decode opcode).mode = .immediate)
    (hoperation : (Instruction.decode opcode).mnemonic.operation = some (.read operation)) :
    p.Performs (Instruction.decode opcode).mnemonic value ∧
      p.step.2.bus.Holds p.step.2.registers.pc rest := by
  obtain ⟨hopcode, hvalue, hrest⟩ := h
  have hinstruction : p.instruction = Instruction.decode opcode := by rw [instruction_eq, hopcode]
  rw [← hinstruction] at hmode hoperation ⊢
  refine ⟨⟨rfl, (p.operand_of_immediate hmode).trans hvalue⟩, ?_⟩
  rw [step_pc_of_read hoperation, found_pc_of_immediate hmode]
  refine hrest.of_get_eq fun address ↦ ?_
  rw [step_get, writes_of_read hoperation]
  rfl

theorem worksThrough_of_code {p : Processor FlatMemory} {kind : Carrying}
    {pairs : List (UInt8 × UInt8)} (h : p.bus.Holds p.registers.pc (kind.code pairs)) :
    p.WorksThrough kind pairs := by
  induction pairs generalizing p with
  | nil => trivial
  | cons pair rest ih =>
    obtain ⟨hload, hbehind⟩ :=
      @step_immediate p 0xA9 pair.1 _ .loadA h (by decide +kernel) (by decide +kernel)
    cases kind with
    | sum =>
      obtain ⟨hwork, hlater⟩ :=
        @step_immediate _ 0x69 pair.2 _ .add hbehind (by decide +kernel) (by decide +kernel)
      exact ⟨hload, hwork, ih hlater⟩
    | difference =>
      obtain ⟨hwork, hlater⟩ :=
        @step_immediate _ 0xE9 pair.2 _ .subtract hbehind (by decide +kernel) (by decide +kernel)
      exact ⟨hload, hwork, ih hlater⟩

/-- The program that lies at the program counter is prepared and works through its pairs. -/
theorem worksThrough_of_program {p : Processor FlatMemory} {kind : Carrying}
    {pairs : List (UInt8 × UInt8)} (h : p.bus.Holds p.registers.pc (kind.program pairs)) :
    p.instruction.mnemonic = kind.preparation ∧ p.step.2.WorksThrough kind pairs := by
  obtain ⟨hopcode, hcode⟩ := h
  have hmnemonic : p.instruction.mnemonic = kind.preparation := by
    rw [instruction_eq, hopcode]
    cases kind <;> decide +kernel
  have hoperation : ∃ operation, p.instruction.mnemonic.operation = some (.internal operation) := by
    rw [hmnemonic]
    cases kind <;> exact ⟨_, rfl⟩
  obtain ⟨operation, hoperation⟩ := hoperation
  refine ⟨hmnemonic, worksThrough_of_code ?_⟩
  rw [step_pc_of_internal hoperation]
  refine hcode.of_get_eq fun address ↦ ?_
  rw [step_get, writes_of_internal hoperation]
  rfl

/-! ## Whole programs -/

theorem step_preparation {p : Processor β} {kind : Carrying}
    (h : p.instruction.mnemonic = kind.preparation) :
    (∃ cycles, p.step.1 = .ok cycles) ∧ kind.carried p.step.2.registers.flags.c = 0 ∧
      p.step.2.registers.flags.d = p.registers.flags.d := by
  cases kind with
  | sum =>
    have hoperation : p.instruction.mnemonic.operation = some (.internal (.setFlag .carry false)) := by
      rw [h]; rfl
    refine ⟨(step_of_some hoperation).1, ?_⟩
    rw [step_registers_of_internal hoperation]
    exact ⟨rfl, rfl⟩
  | difference =>
    have hoperation : p.instruction.mnemonic.operation = some (.internal (.setFlag .carry true)) := by
      rw [h]; rfl
    refine ⟨(step_of_some hoperation).1, ?_⟩
    rw [step_registers_of_internal hoperation]
    exact ⟨rfl, rfl⟩

section

variable {p : Processor β} {kind : Carrying} {pairs : List (UInt8 × UInt8)}

/-- A program for long numbers in either mode: none of its instructions fails, the accumulator goes through the
digits of the exact result, and the last flags are those of the long numbers.  The bytes count as numbers to
the base 100 in decimal mode, where they have to be packed, and to the base 256 otherwise. -/
theorem long_arithmetic (hpairs : pairs ≠ []) (hprepare : p.instruction.mnemonic = kind.preparation)
    (hworks : p.step.2.WorksThrough kind pairs) :
    let decimal := p.registers.flags.d
    let firsts := pairs.map Prod.fst
    let seconds := pairs.map Prod.snd
    let result := p.step.2.results pairs.length
    let last := (p.stepped (2 * pairs.length + 1)).registers.flags
    let modulus := digitBase decimal ^ pairs.length
    (∀ done < 2 * pairs.length + 1, ∃ cycles, (p.stepped done).step.1 = .ok cycles) ∧
    ((∀ pair ∈ pairs, IsDigit decimal pair.1 ∧ IsDigit decimal pair.2) →
      (∀ byte ∈ result, IsDigit decimal byte) ∧
      (number decimal result : Int) =
        kind.total (number decimal firsts) (number decimal seconds) % (modulus : Nat) ∧
      (last.c = true ↔
        kind.Carries modulus (kind.total (number decimal firsts) (number decimal seconds)))) ∧
    (decimal = false →
      (last.v = true ↔ ¬FitsSigned modulus
        (kind.total (signedOf modulus (number false firsts)) (signedOf modulus (number false seconds)))) ∧
      (last.n = true ↔ signedOf modulus (number false result) < 0)) := by
  obtain ⟨hdone, hcarry, hmode⟩ := step_preparation hprepare
  have hlast := p.stepped_step (2 * pairs.length)
  refine ⟨?_, ?_, ?_⟩
  · intro done hlt
    rcases done with _ | done
    · exact hdone
    · rw [← stepped_step]
      exact hworks.goes_on done (by omega)
  · intro hdigits
    obtain ⟨hexact, hresult⟩ := hworks.number_results hmode hdigits
    have hlt := number_lt hresult
    rw [length_results] at hlt
    rw [hcarry, add_zero] at hexact
    rw [← hlast]
    refine ⟨hresult, kind.split_total hlt ?_⟩
    push_cast
    exact hexact
  · intro hbinary
    have hbase : digitBase p.registers.flags.d = 256 := by rw [hbinary]; rfl
    rw [← hlast, hbase]
    constructor
    · have hoverflow := hworks.overflow_results hpairs (hmode.trans hbinary)
      rwa [hcarry, add_zero] at hoverflow
    · have hlt : number false (p.step.2.results pairs.length) < 256 ^ pairs.length := by
        have hlt := @number_lt false (p.step.2.results pairs.length)
          (fun byte _ h ↦ absurd h Bool.false_ne_true)
        rwa [length_results] at hlt
      rw [signedOf_neg_iff hlt]
      exact hworks.negative_results hpairs

/-- The sum of 32752 and 288 has no carry, but in two's complement two bytes have no room for it. -/
theorem long_arithmetic_of_overflow :
    let memory : FlatMemory :=
      { bytes := ⟨#[0x18, 0xA9, 0xF0, 0x69, 0x20, 0xA9, 0x7F, 0x69, 0x01]⟩ }
    let p : Processor FlatMemory := { bus := memory }
    (number false (p.step.2.results 2) : Int) = 32752 + 288 ∧
      (p.stepped 5).registers.flags.c = false ∧ (p.stepped 5).registers.flags.v = true := by
  intro memory p
  have hprogram : p.bus.Holds 0 (Carrying.sum.program [(0xF0, 0x20), (0x7F, 0x01)]) := by
    simp only [Carrying.program, Carrying.code, FlatMemory.Holds]
    decide +kernel
  obtain ⟨hprepare, hworks⟩ := worksThrough_of_program hprogram
  obtain ⟨-, hresult, hflags⟩ := long_arithmetic (List.cons_ne_nil _ _) hprepare hworks
  obtain ⟨-, hnumber, hcarry⟩ := hresult (fun _ _ ↦ ⟨nofun, nofun⟩)
  obtain ⟨hoverflow, -⟩ := hflags rfl
  refine ⟨hnumber.trans (by decide +kernel), ?_, hoverflow.mpr (by decide +kernel)⟩
  exact Bool.eq_false_iff.mpr (mt hcarry.mp (by decide +kernel))

end

end Processor

end Vcs
