/-!
# Instructions

How an opcode is written, where its operand comes from, what it costs and what kind of work it does.
Upper-case mnemonics are documented.  Of the others some perform a documented pair of operations at
once and programs rely on them; the rest have no operation and cannot be executed.
-/

namespace Vcs

/-- Where an instruction finds its operand. -/
inductive AddressingMode where
  | implied
  | immediate
  | zeroPage
  | zeroPageX
  | zeroPageY
  | absolute
  | absoluteX
  | absoluteY
  /-- Through a pointer anywhere in memory; the jump alone has it. -/
  | indirect
  /-- Through a pointer in page zero, which X selects. -/
  | indirectX
  /-- Through a pointer in page zero, Y being added to what it points to. -/
  | indirectY
  | relative
  | invalid
  deriving DecidableEq, Repr, Inhabited

namespace AddressingMode

def name : AddressingMode → String
  | implied => "Implied"
  | immediate => "Immediate"
  | zeroPage => "ZeroPage"
  | zeroPageX => "ZeroPageX"
  | zeroPageY => "ZeroPageY"
  | absolute => "Absolute"
  | absoluteX => "AbsoluteX"
  | absoluteY => "AbsoluteY"
  | indirect => "Indirect"
  | indirectX => "IndirectX"
  | indirectY => "IndirectY"
  | relative => "Relative"
  | invalid => "Invalid"

/-- Bytes that follow the opcode. -/
def operandBytes : AddressingMode → Nat
  | implied | invalid => 0
  | immediate | zeroPage | zeroPageX | zeroPageY | indirectX | indirectY | relative => 1
  | absolute | absoluteX | absoluteY | indirect => 2

end AddressingMode

/-- What an instruction may cost on top of its base cycles. -/
inductive ExtraCost where
  /-- Nothing. -/
  | fixed
  /-- One cycle if indexing crossed a page. -/
  | pageCross
  /-- One cycle if taken, two if taken onto another page. -/
  | branch
  deriving DecidableEq, Repr, Inhabited

namespace ExtraCost

def name : ExtraCost → String
  | fixed => "Fixed"
  | pageCross => "PageCross"
  | branch => "Branch"

/-- The part of a surcharge that is billed. -/
@[inline]
def billed (cost : ExtraCost) (surcharge : UInt8) : UInt8 :=
  match cost with
  | fixed => 0
  | pageCross | branch => surcharge

end ExtraCost

/-- Names of the instructions. -/
inductive Mnemonic where
  | adc | and | asl | aslA | bcc | bcs | beq | bit | bmi | bne | bpl | brk | bvc | bvs | clc | cld
  | cli | clv | cmp | cpx | cpy | dec | dex | dey | eor | inc | inx | iny | jmp | jsr | lda | ldx
  | ldy | lsr | lsrA | nop | ora | pha | php | pla | plp | rol | rolA | ror | rorA | rti | rts | sbc
  | sec | sed | sei | sta | stx | sty | tax | tay | tsx | txa | txs | tya
  | anc | ane | arr | asr | dcp | isb | las | lax | lxa | rla | rra | sax | sbx | sha | shs | shx
  | shy | slo | sre
  /-- Fetches an operand and drops it. -/
  | skip
  /-- A second encoding of the immediate subtraction. -/
  | sbcAlias
  /-- Not an instruction. -/
  | none
  deriving DecidableEq, Repr, Inhabited

namespace Mnemonic

def name : Mnemonic → String
  | adc => "ADC" | and => "AND" | asl => "ASL" | aslA => "ASLA" | bcc => "BCC" | bcs => "BCS"
  | beq => "BEQ" | bit => "BIT" | bmi => "BMI" | bne => "BNE" | bpl => "BPL" | brk => "BRK"
  | bvc => "BVC" | bvs => "BVS" | clc => "CLC" | cld => "CLD" | cli => "CLI" | clv => "CLV"
  | cmp => "CMP" | cpx => "CPX" | cpy => "CPY" | dec => "DEC" | dex => "DEX" | dey => "DEY"
  | eor => "EOR" | inc => "INC" | inx => "INX" | iny => "INY" | jmp => "JMP" | jsr => "JSR"
  | lda => "LDA" | ldx => "LDX" | ldy => "LDY" | lsr => "LSR" | lsrA => "LSRA" | nop => "NOP"
  | ora => "ORA" | pha => "PHA" | php => "PHP" | pla => "PLA" | plp => "PLP" | rol => "ROL"
  | rolA => "ROLA" | ror => "ROR" | rorA => "RORA" | rti => "RTI" | rts => "RTS" | sbc => "SBC"
  | sec => "SEC" | sed => "SED" | sei => "SEI" | sta => "STA" | stx => "STX" | sty => "STY"
  | tax => "TAX" | tay => "TAY" | tsx => "TSX" | txa => "TXA" | txs => "TXS" | tya => "TYA"
  | anc => "anc" | ane => "ane" | arr => "arr" | asr => "asr" | dcp => "dcp" | isb => "isb"
  | las => "las" | lax => "lax" | lxa => "lxa" | rla => "rla" | rra => "rra" | sax => "sax"
  | sbx => "sbx" | sha => "sha" | shs => "shs" | shx => "shx" | shy => "shy" | slo => "slo"
  | sre => "sre" | skip => "nop" | sbcAlias => "sbc" | none => "n/a"

end Mnemonic

/-- What an opcode decodes to. -/
structure Instruction where
  mnemonic : Mnemonic
  mode : AddressingMode
  /-- Base cost in cycles. -/
  cycles : UInt8
  extra : ExtraCost
  deriving DecidableEq, Repr, Inhabited

end Vcs
