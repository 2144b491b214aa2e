import Vcs.Processor.Operation

/-!
# Opcodes

The opcode matrix: the high nibble of an opcode selects the row and the low nibble the place in it.
Decoding is total, since every opcode has a name, a mode and a cost; whether it can be executed is a
question about its name.
-/

namespace Vcs.Instruction

/-- The instruction of every opcode. -/
def matrix : Vector (Vector Instruction 16) 16 :=
  #v[
    #v[⟨.brk, .implied, 7, .fixed⟩, ⟨.ora, .indirectX, 6, .fixed⟩,
      ⟨.none, .invalid, 2, .fixed⟩, ⟨.slo, .indirectX, 8, .fixed⟩,
      ⟨.skip, .zeroPage, 3, .fixed⟩, ⟨.ora, .zeroPage, 3, .fixed⟩,
      ⟨.asl, .zeroPage, 5, .fixed⟩, ⟨.slo, .zeroPage, 5, .fixed⟩,
      ⟨.php, .implied, 3, .fixed⟩, ⟨.ora, .immediate, 2, .fixed⟩,
      ⟨.aslA, .implied, 2, .fixed⟩, ⟨.anc, .immediate, 2, .fixed⟩,
      ⟨.skip, .absolute, 4, .fixed⟩, ⟨.ora, .absolute, 4, .fixed⟩,
      ⟨.asl, .absolute, 6, .fixed⟩, ⟨.slo, .absolute, 6, .fixed⟩],
    #v[⟨.bpl, .relative, 2, .branch⟩, ⟨.ora, .indirectY, 5, .pageCross⟩,
      ⟨.none, .invalid, 2, .fixed⟩, ⟨.slo, .indirectY, 8, .fixed⟩,
      ⟨.skip, .zeroPageX, 4, .fixed⟩, ⟨.ora, .zeroPageX, 4, .fixed⟩,
      ⟨.asl, .zeroPageX, 6, .fixed⟩, ⟨.slo, .zeroPageX, 6, .fixed⟩,
      ⟨.clc, .implied, 2, .fixed⟩, ⟨.ora, .absoluteY, 4, .pageCross⟩,
      ⟨.skip, .implied, 2, .fixed⟩, ⟨.slo, .absoluteY, 7, .fixed⟩,
      ⟨.skip, .absoluteX, 4, .fixed⟩, ⟨.ora, .absoluteX, 4, .pageCross⟩,
      ⟨.asl, .absoluteX, 7, .fixed⟩, ⟨.slo, .absoluteX, 7, .fixed⟩],
    #v[⟨.jsr, .absolute, 6, .fixed⟩, ⟨.and, .indirectX, 6, .fixed⟩,
      ⟨.none, .invalid, 2, .fixed⟩, ⟨.rla, .indirectX, 8, .fixed⟩,
      ⟨.bit, .zeroPage, 3, .fixed⟩, ⟨.and, .zeroPage, 3, .fixed⟩,
      ⟨.rol, .zeroPage, 5, .fixed⟩, ⟨.rla, .zeroPage, 5, .fixed⟩,
      ⟨.plp, .implied, 4, .fixed⟩, ⟨.and, .immediate, 2, .fixed⟩,
      ⟨.rolA, .implied, 2, .fixed⟩, ⟨.anc, .immediate, 2, .fixed⟩,
      ⟨.bit, .absolute, 4, .fixed⟩, ⟨.and, .absolute, 4, .fixed⟩,
      ⟨.rol, .absolute, 6, .fixed⟩, ⟨.rla, .absolute, 6, .fixed⟩],
    #v[⟨.bmi, .relative, 2, .branch⟩, ⟨.and, .indirectY, 5, .pageCross⟩,
      ⟨.none, .invalid, 2, .fixed⟩, ⟨.rla, .indirectY, 8, .fixed⟩,
      ⟨.skip, .zeroPageX, 4, .fixed⟩, ⟨.and, .zeroPageX, 4, .fixed⟩,
      ⟨.rol, .zeroPageX, 6, .fixed⟩, ⟨.rla, .zeroPageX, 6, .fixed⟩,
      ⟨.sec, .implied, 2, .fixed⟩, ⟨.and, .absoluteY, 4, .pageCross⟩,
      ⟨.skip, .implied, 2, .fixed⟩, ⟨.rla, .absoluteY, 7, .fixed⟩,
      ⟨.skip, .absoluteX, 4, .fixed⟩, ⟨.and, .absoluteX, 4, .pageCross⟩,
      ⟨.rol, .absoluteX, 7, .fixed⟩, ⟨.rla, .absoluteX, 7, .fixed⟩],
    #v[⟨.rti, .implied, 6, .fixed⟩, ⟨.eor, .indirectX, 6, .fixed⟩,
      ⟨.none, .invalid, 2, .fixed⟩, ⟨.sre, .indirectX, 8, .fixed⟩,
      ⟨.skip, .zeroPage, 3, .fixed⟩, ⟨.eor, .zeroPage, 3, .fixed⟩,
      ⟨.lsr, .zeroPage, 5, .fixed⟩, ⟨.sre, .zeroPage, 5, .fixed⟩,
      ⟨.pha, .implied, 3, .fixed⟩, ⟨.eor, .immediate, 2, .fixed⟩,
      ⟨.lsrA, .implied, 2, .fixed⟩, ⟨.asr, .immediate, 2, .fixed⟩,
      ⟨.jmp, .absolute, 3, .fixed⟩, ⟨.eor, .absolute, 4, .fixed⟩,
      ⟨.lsr, .absolute, 6, .fixed⟩, ⟨.sre, .absolute, 6, .fixed⟩],
    #v[⟨.bvc, .relative, 2, .branch⟩, ⟨.eor, .indirectY, 5, .pageCross⟩,
      ⟨.none, .invalid, 2, .fixed⟩, ⟨.sre, .indirectY, 8, .fixed⟩,
      ⟨.skip, .zeroPageX, 4, .fixed⟩, ⟨.eor, .zeroPageX, 4, .fixed⟩,
      ⟨.lsr, .zeroPageX, 6, .fixed⟩, ⟨.sre, .zeroPageX, 6, .fixed⟩,
      ⟨.cli, .implied, 2, .fixed⟩, ⟨.eor, .absoluteY, 4, .pageCross⟩,
      ⟨.skip, .implied, 2, .fixed⟩, ⟨.sre, .absoluteY, 7, .fixed⟩,
      ⟨.skip, .absoluteX, 4, .fixed⟩, ⟨.eor, .absoluteX, 4, .pageCross⟩,
      ⟨.lsr, .absoluteX, 7, .fixed⟩, ⟨.sre, .absoluteX, 7, .fixed⟩],
    #v[⟨.rts, .implied, 6, .fixed⟩, ⟨.adc, .indirectX, 6, .fixed⟩,
      ⟨.none, .invalid, 2, .fixed⟩, ⟨.rra, .indirectX, 8, .fixed⟩,
      ⟨.skip, .zeroPage, 3, .fixed⟩, ⟨.adc, .zeroPage, 3, .fixed⟩,
      ⟨.ror, .zeroPage, 5, .fixed⟩, ⟨.rra, .zeroPage, 5, .fixed⟩,
      ⟨.pla, .implied, 4, .fixed⟩, ⟨.adc, .immediate, 2, .fixed⟩,
      ⟨.rorA, .implied, 2, .fixed⟩, ⟨.arr, .immediate, 2, .fixed⟩,
      ⟨.jmp, .indirect, 5, .fixed⟩, ⟨.adc, .absolute, 4, .fixed⟩,
      ⟨.ror, .absolute, 6, .fixed⟩, ⟨.rra, .absolute, 6, .fixed⟩],
    #v[⟨.bvs, .relative, 2, .branch⟩, ⟨.adc, .indirectY, 5, .pageCross⟩,
      ⟨.none, .invalid, 2, .fixed⟩, ⟨.rra, .indirectY, 8, .fixed⟩,
      ⟨.skip, .zeroPageX, 4, .fixed⟩, ⟨.adc, .zeroPageX, 4, .fixed⟩,
      ⟨.ror, .zeroPageX, 6, .fixed⟩, ⟨.rra, .zeroPageX, 6, .fixed⟩,
      ⟨.sei, .implied, 2, .fixed⟩, ⟨.adc, .absoluteY, 4, .pageCross⟩,
      ⟨.skip, .implied, 2, .fixed⟩, ⟨.rra, .absoluteY, 7, .fixed⟩,
      ⟨.skip, .absoluteX, 4, .fixed⟩, ⟨.adc, .absoluteX, 4, .pageCross⟩,
      ⟨.ror, .absoluteX, 7, .fixed⟩, ⟨.rra, .absoluteX, 7, .fixed⟩],
    #v[⟨.skip, .immediate, 2, .fixed⟩, ⟨.sta, .indirectX, 6, .fixed⟩,
      ⟨.skip, .immediate, 2, .fixed⟩, ⟨.sax, .indirectX, 6, .fixed⟩,
      ⟨.sty, .zeroPage, 3, .fixed⟩, ⟨.sta, .zeroPage, 3, .fixed⟩,
      ⟨.stx, .zeroPage, 3, .fixed⟩, ⟨.sax, .zeroPage, 3, .fixed⟩,
      ⟨.dey, .implied, 2, .fixed⟩, ⟨.skip, .immediate, 2, .fixed⟩,
      ⟨.txa, .implied, 2, .fixed⟩, ⟨.ane, .immediate, 2, .fixed⟩,
      ⟨.sty, .absolute, 4, .fixed⟩, ⟨.sta, .absolute, 4, .fixed⟩,
      ⟨.stx, .absolute, 4, .fixed⟩, ⟨.sax, .absolute, 4, .fixed⟩],
    #v[⟨.bcc, .relative, 2, .branch⟩, ⟨.sta, .indirectY, 6, .fixed⟩,
      ⟨.none, .invalid, 2, .fixed⟩, ⟨.sha, .indirectY, 6, .fixed⟩,
      ⟨.sty, .zeroPageX, 4, .fixed⟩, ⟨.sta, .zeroPageX, 4, .fixed⟩,
      ⟨.stx, .zeroPageY, 4, .fixed⟩, ⟨.sax, .zeroPageY, 4, .fixed⟩,
      ⟨.tya, .implied, 2, .fixed⟩, ⟨.sta, .absoluteY, 5, .fixed⟩,
      ⟨.txs, .implied, 2, .fixed⟩, ⟨.shs, .absoluteY, 5, .fixed⟩,
      ⟨.shy, .absoluteX, 5, .fixed⟩, ⟨.sta, .absoluteX, 5, .fixed⟩,
      ⟨.shx, .absoluteY, 5, .fixed⟩, ⟨.sha, .absoluteY, 5, .fixed⟩],
    #v[⟨.ldy, .immediate, 2, .fixed⟩, ⟨.lda, .indirectX, 6, .fixed⟩,
      ⟨.ldx, .immediate, 2, .fixed⟩, ⟨.lax, .indirectX, 6, .fixed⟩,
      ⟨.ldy, .zeroPage, 3, .fixed⟩, ⟨.lda, .zeroPage, 3, .fixed⟩,
      ⟨.ldx, .zeroPage, 3, .fixed⟩, ⟨.lax, .zeroPage, 4, .fixed⟩,
      ⟨.tay, .implied, 2, .fixed⟩, ⟨.lda, .immediate, 2, .fixed⟩,
      ⟨.tax, .implied, 2, .fixed⟩, ⟨.lxa, .immediate, 2, .fixed⟩,
      ⟨.ldy, .absolute, 4, .fixed⟩, ⟨.lda, .absolute, 4, .fixed⟩,
      ⟨.ldx, .absolute, 4, .fixed⟩, ⟨.lax, .absolute, 4, .fixed⟩],
    #v[⟨.bcs, .relative, 2, .branch⟩, ⟨.lda, .indirectY, 5, .pageCross⟩,
      ⟨.none, .invalid, 2, .fixed⟩, ⟨.lax, .indirectY, 5, .pageCross⟩,
      ⟨.ldy, .zeroPageX, 4, .fixed⟩, ⟨.lda, .zeroPageX, 4, .fixed⟩,
      ⟨.ldx, .zeroPageY, 4, .fixed⟩, ⟨.lax, .zeroPageY, 4, .fixed⟩,
      ⟨.clv, .implied, 2, .fixed⟩, ⟨.lda, .absoluteY, 4, .pageCross⟩,
      ⟨.tsx, .implied, 2, .fixed⟩, ⟨.las, .absoluteY, 4, .fixed⟩,
      ⟨.ldy, .absoluteX, 4, .pageCross⟩, ⟨.lda, .absoluteX, 4, .pageCross⟩,
      ⟨.ldx, .absoluteY, 4, .pageCross⟩, ⟨.lax, .absoluteY, 4, .pageCross⟩],
    #v[⟨.cpy, .immediate, 2, .fixed⟩, ⟨.cmp, .indirectX, 6, .fixed⟩,
      ⟨.skip, .immediate, 2, .fixed⟩, ⟨.dcp, .indirectX, 8, .fixed⟩,
      ⟨.cpy, .zeroPage, 3, .fixed⟩, ⟨.cmp, .zeroPage, 3, .fixed⟩,
      ⟨.dec, .zeroPage, 5, .fixed⟩, ⟨.dcp, .zeroPage, 5, .fixed⟩,
      ⟨.iny, .implied, 2, .fixed⟩, ⟨.cmp, .immediate, 2, .fixed⟩,
      ⟨.dex, .implied, 2, .fixed⟩, ⟨.sbx, .immediate, 2, .fixed⟩,
      ⟨.cpy, .absolute, 4, .fixed⟩, ⟨.cmp, .absolute, 4, .fixed⟩,
      ⟨.dec, .absolute, 6, .fixed⟩, ⟨.dcp, .absolute, 6, .fixed⟩],
    #v[⟨.bne, .relative, 2, .branch⟩, ⟨.cmp, .indirectY, 5, .pageCross⟩,
      ⟨.none, .invalid, 2, .fixed⟩, ⟨.dcp, .indirectY, 8, .fixed⟩,
      ⟨.skip, .zeroPageX, 4, .fixed⟩, ⟨.cmp, .zeroPageX, 4, .fixed⟩,
      ⟨.dec, .zeroPageX, 6, .fixed⟩, ⟨.dcp, .zeroPageX, 6, .fixed⟩,
      ⟨.cld, .implied, 2, .fixed⟩, ⟨.cmp, .absoluteY, 4, .pageCross⟩,
      ⟨.skip, .implied, 2, .fixed⟩, ⟨.dcp, .absoluteY, 7, .fixed⟩,
      ⟨.skip, .absoluteX, 4, .fixed⟩, ⟨.cmp, .absoluteX, 4, .pageCross⟩,
      ⟨.dec, .absoluteX, 7, .fixed⟩, ⟨.dcp, .absoluteX, 7, .fixed⟩],
    #v[⟨.cpx, .immediate, 2, .fixed⟩, ⟨.sbc, .indirectX, 6, .fixed⟩,
      ⟨.skip, .immediate, 2, .fixed⟩, ⟨.isb, .indirectX, 8, .fixed⟩,
      ⟨.cpx, .zeroPage, 3, .fixed⟩, ⟨.sbc, .zeroPage, 3, .fixed⟩,
      ⟨.inc, .zeroPage, 5, .fixed⟩, ⟨.isb, .zeroPage, 5, .fixed⟩,
      ⟨.inx, .implied, 2, .fixed⟩, ⟨.sbc, .immediate, 2, .fixed⟩,
      ⟨.nop, .implied, 2, .fixed⟩, ⟨.sbcAlias, .immediate, 2, .fixed⟩,
      ⟨.cpx, .absolute, 4, .fixed⟩, ⟨.sbc, .absolute, 4, .fixed⟩,
      ⟨.inc, .absolute, 6, .fixed⟩, ⟨.isb, .absolute, 6, .fixed⟩],
    #v[⟨.beq, .relative, 2, .branch⟩, ⟨.sbc, .indirectY, 5, .pageCross⟩,
      ⟨.none, .invalid, 2, .fixed⟩, ⟨.isb, .indirectY, 8, .fixed⟩,
      ⟨.skip, .zeroPageX, 4, .fixed⟩, ⟨.sbc, .zeroPageX, 4, .fixed⟩,
      ⟨.inc, .zeroPageX, 6, .fixed⟩, ⟨.isb, .zeroPageX, 6, .fixed⟩,
      ⟨.sed, .implied, 2, .fixed⟩, ⟨.sbc, .absoluteY, 4, .pageCross⟩,
      ⟨.skip, .implied, 2, .fixed⟩, ⟨.isb, .absoluteY, 7, .fixed⟩,
      ⟨.skip, .absoluteX, 4, .fixed⟩, ⟨.sbc, .absoluteX, 4, .pageCross⟩,
      ⟨.inc, .absoluteX, 7, .fixed⟩, ⟨.isb, .absoluteX, 7, .fixed⟩]]

/-- Decodes an opcode. -/
@[inline]
def decode (opcode : UInt8) : Instruction :=
  have row : opcode.toNat / 16 < 16 := by have := opcode.toNat_lt; omega
  matrix[opcode.toNat / 16][opcode.toNat % 16]

end Vcs.Instruction
