import Handheld.Cpu.Registers

/-!
# Instructions

The instruction set as a type. Immediate operands are not part of an instruction: they are fetched
when it is executed. The bit instructions form a second page, entered by the byte `CB`.

* `Instruction.mnemonic`, `BitInstruction.mnemonic`: the assembly text, with `n`, `nn` and `e` for
  immediate operands.
-/

namespace Handheld

/-- An 8-bit operand: a register, or the byte that `HL` points to. -/
inductive Operand where
  | reg (r : Reg8)
  | atHL
  deriving DecidableEq

/-- A pointer through which A is loaded and stored; `HL` may step afterwards. -/
inductive Pointer where
  | bc
  | de
  | hlInc
  | hlDec
  deriving DecidableEq

/-- The conditions of jumps, calls and returns. -/
inductive Condition where
  | notZero
  | zero
  | notCarry
  | carry
  deriving DecidableEq

/-- The accumulator operations. -/
inductive AluOp where
  | add
  | adc
  | sub
  | sbc
  | and
  | xor
  | or
  | cp
  deriving DecidableEq

/-- The rotations, circular or through the carry. -/
inductive Rotation where
  | rlc
  | rrc
  | rl
  | rr
  deriving DecidableEq

/-- The rotations and shifts of the bit page. -/
inductive ShiftOp where
  | rotate (r : Rotation)
  | sla
  | sra
  | swap
  | srl
  deriving DecidableEq

/-- The instructions of the base page. -/
inductive Instruction where
  | nop
  | stop
  | halt
  | di
  | ei
  | ld (dst src : Operand)
  | ldImm (dst : Operand)
  | ld16Imm (dst : Reg16)
  | storeA (p : Pointer)
  | loadA (p : Pointer)
  | storeSPAbs
  | storeAAbs
  | loadAAbs
  | storeAHighImm
  | loadAHighImm
  | storeAHighC
  | loadAHighC
  | ldHLOffsetSP
  | ldSPHL
  | inc (dst : Operand)
  | dec (dst : Operand)
  | inc16 (dst : Reg16)
  | dec16 (dst : Reg16)
  | addHL (src : Reg16)
  | addSPOffset
  | alu (op : AluOp) (src : Operand)
  | aluImm (op : AluOp)
  | rotateA (r : Rotation)
  | daa
  | cpl
  | scf
  | ccf
  | jr (cond : Option Condition)
  | jp (cond : Option Condition)
  | jpHL
  | call (cond : Option Condition)
  | ret (cond : Option Condition)
  | reti
  | rst (target : UInt8)
  | push (src : StackPair)
  | pop (dst : StackPair)
  /-- The byte that enters the bit page. -/
  | bitPage
  /-- An opcode that hangs the CPU. -/
  | undefined
  deriving DecidableEq

/-- The instructions of the bit page. -/
inductive BitInstruction where
  | shift (op : ShiftOp) (dst : Operand)
  | bit (n : UInt8) (src : Operand)
  | res (n : UInt8) (dst : Operand)
  | set (n : UInt8) (dst : Operand)
  deriving DecidableEq

/-- True if the condition holds for the flags. -/
def Condition.holds (f : Flags) : Condition → Bool
  | notZero => !f.zero
  | zero => f.zero
  | notCarry => !f.carry
  | carry => f.carry

/-- An instruction without a condition always goes ahead. -/
def Condition.allows (f : Flags) : Option Condition → Bool
  | none => true
  | some c => c.holds f

/-! ## Assembly text -/

def Reg8.mnemonic : Reg8 → String
  | b => "B"
  | c => "C"
  | d => "D"
  | e => "E"
  | h => "H"
  | l => "L"
  | a => "A"

def Operand.mnemonic : Operand → String
  | reg r => r.mnemonic
  | atHL => "(HL)"

def Reg16.mnemonic : Reg16 → String
  | bc => "BC"
  | de => "DE"
  | hl => "HL"
  | sp => "SP"

def StackPair.mnemonic : StackPair → String
  | bc => "BC"
  | de => "DE"
  | hl => "HL"
  | af => "AF"

def Pointer.mnemonic : Pointer → String
  | bc => "(BC)"
  | de => "(DE)"
  | hlInc => "(HL+)"
  | hlDec => "(HL-)"

def Condition.mnemonic : Condition → String
  | notZero => "NZ"
  | zero => "Z"
  | notCarry => "NC"
  | carry => "C"

/-- The operation up to its operand; half of them spell the accumulator out. -/
def AluOp.mnemonic : AluOp → String
  | add => "ADD A,"
  | adc => "ADC A,"
  | sub => "SUB "
  | sbc => "SBC A,"
  | and => "AND "
  | xor => "XOR "
  | or => "OR "
  | cp => "CP "

def Rotation.mnemonic : Rotation → String
  | rlc => "RLC"
  | rrc => "RRC"
  | rl => "RL"
  | rr => "RR"

def ShiftOp.mnemonic : ShiftOp → String
  | rotate r => r.mnemonic
  | sla => "SLA"
  | sra => "SRA"
  | swap => "SWAP"
  | srl => "SRL"

/-- A jump or call with its optional condition and its target. -/
def Condition.branchText (name : String) (cond : Option Condition) (target : String) : String :=
  match cond with
  | some c => name ++ " " ++ c.mnemonic ++ "," ++ target
  | none => name ++ " " ++ target

def Instruction.mnemonic : Instruction → String
  | nop => "NOP"
  | stop => "STOP"
  | halt => "HALT"
  | di => "DI"
  | ei => "EI"
  | ld dst src => "LD " ++ dst.mnemonic ++ "," ++ src.mnemonic
  | ldImm dst => "LD " ++ dst.mnemonic ++ ",n"
  | ld16Imm dst => "LD " ++ dst.mnemonic ++ ",nn"
  | storeA p => "LD " ++ p.mnemonic ++ ",A"
  | loadA p => "LD A," ++ p.mnemonic
  | storeSPAbs => "LD (nn),SP"
  | storeAAbs => "LD (nn),A"
  | loadAAbs => "LD A,(nn)"
  | storeAHighImm => "LDH (n),A"
  | loadAHighImm => "LDH A,(n)"
  | storeAHighC => "LD (C),A"
  | loadAHighC => "LD A,(C)"
  | ldHLOffsetSP => "LD HL,SP+e"
  | ldSPHL => "LD SP,HL"
  | inc dst => "INC " ++ dst.mnemonic
  | dec dst => "DEC " ++ dst.mnemonic
  | inc16 dst => "INC " ++ dst.mnemonic
  | dec16 dst => "DEC " ++ dst.mnemonic
  | addHL src => "ADD HL," ++ src.mnemonic
  | addSPOffset => "ADD SP,e"
  | alu op src => op.mnemonic ++ src.mnemonic
  | aluImm op => op.mnemonic ++ "n"
  | rotateA r => r.mnemonic ++ "A"
  | daa => "DAA"
  | cpl => "CPL"
  | scf => "SCF"
  | ccf => "CCF"
  | jr cond => Condition.branchText "JR" cond "e"
  | jp cond => Condition.branchText "JP" cond "nn"
  | jpHL => "JP HL"
  | call cond => Condition.branchText "CALL" cond "nn"
  | ret none => "RET"
  | ret (some c) => "RET " ++ c.mnemonic
  | reti => "RETI"
  | rst target => "RST " ++ Text.upperHex 2 target.toNat ++ "H"
  | push src => "PUSH " ++ src.mnemonic
  | pop dst => "POP " ++ dst.mnemonic
  | bitPage => "PREFIX CB"
  | undefined => "ILLEGAL"

def BitInstruction.mnemonic : BitInstruction → String
  | shift op dst => op.mnemonic ++ " " ++ dst.mnemonic
  | bit n src => "BIT " ++ toString n.toNat ++ "," ++ src.mnemonic
  | res n dst => "RES " ++ toString n.toNat ++ "," ++ dst.mnemonic
  | set n dst => "SET " ++ toString n.toNat ++ "," ++ dst.mnemonic

end Handheld
