/-!
# Mnemonics

The three-letter names of the documented instructions of the 6502.
-/

namespace LinearSweep

inductive Mnemonic where
  | adc | and | asl | bcc | bcs | beq | bit | bmi | bne | bpl | brk | bvc | bvs | clc | cld | cli
  | clv | cmp | cpx | cpy | dec | dex | dey | eor | inc | inx | iny | jmp | jsr | lda | ldx | ldy
  | lsr | nop | ora | pha | php | pla | plp | rol | ror | rti | rts | sbc | sec | sed | sei | sta
  | stx | sty | tax | tay | tsx | txa | txs | tya
  deriving DecidableEq, Repr

def Mnemonic.name : Mnemonic → String
  | .adc => "ADC" | .and => "AND" | .asl => "ASL" | .bcc => "BCC" | .bcs => "BCS"
  | .beq => "BEQ" | .bit => "BIT" | .bmi => "BMI" | .bne => "BNE" | .bpl => "BPL"
  | .brk => "BRK" | .bvc => "BVC" | .bvs => "BVS" | .clc => "CLC" | .cld => "CLD"
  | .cli => "CLI" | .clv => "CLV" | .cmp => "CMP" | .cpx => "CPX" | .cpy => "CPY"
  | .dec => "DEC" | .dex => "DEX" | .dey => "DEY" | .eor => "EOR" | .inc => "INC"
  | .inx => "INX" | .iny => "INY" | .jmp => "JMP" | .jsr => "JSR" | .lda => "LDA"
  | .ldx => "LDX" | .ldy => "LDY" | .lsr => "LSR" | .nop => "NOP" | .ora => "ORA"
  | .pha => "PHA" | .php => "PHP" | .pla => "PLA" | .plp => "PLP" | .rol => "ROL"
  | .ror => "ROR" | .rti => "RTI" | .rts => "RTS" | .sbc => "SBC" | .sec => "SEC"
  | .sed => "SED" | .sei => "SEI" | .sta => "STA" | .stx => "STX" | .sty => "STY"
  | .tax => "TAX" | .tay => "TAY" | .tsx => "TSX" | .txa => "TXA" | .txs => "TXS"
  | .tya => "TYA"

theorem Mnemonic.length_name (m : Mnemonic) : m.name.length = 3 := by
  cases m <;> rfl

end LinearSweep
