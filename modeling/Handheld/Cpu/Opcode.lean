import Handheld.Cpu.Instruction

/-!
# Opcodes

Which instruction each byte stands for, with its length and its cost. A byte splits into the fields
`xx yyy zzz`; most rows of the instruction set vary with one field only.

* `decode`, `decodeBit`: the descriptor of every byte of the two pages.
* `Descriptor.cycles`: clock cycles at normal speed, four for each bus cycle; `branchCycles` is the
  cost when a condition lets the instruction go ahead.
-/

namespace Handheld

/-- What a byte of an instruction page means and costs. -/
structure Descriptor (α : Type) where
  op : α
  /-- Bytes, the opcode included. -/
  length : Nat
  cycles : Nat
  branchCycles : Nat

namespace Descriptor

/-- A descriptor whose cost does not depend on a condition. -/
def fixed {α : Type} (op : α) (length cycles : Nat) : Descriptor α :=
  ⟨op, length, cycles, cycles⟩

/-- Conditional instructions are those with two costs. -/
def isConditional {α : Type} (d : Descriptor α) : Bool := d.cycles != d.branchCycles

end Descriptor

def Operand.ofField (i : UInt8) : Operand :=
  match i &&& 7 with
  | 0 => .reg .b
  | 1 => .reg .c
  | 2 => .reg .d
  | 3 => .reg .e
  | 4 => .reg .h
  | 5 => .reg .l
  | 6 => .atHL
  | _ => .reg .a

/-- `n` cycles for a register, more for the byte at `HL`. -/
def Operand.cost (o : Operand) (register memory : Nat) : Nat :=
  match o with
  | reg _ => register
  | atHL => memory

def Reg16.ofField (i : UInt8) : Reg16 :=
  match i &&& 3 with
  | 0 => .bc
  | 1 => .de
  | 2 => .hl
  | _ => .sp

def StackPair.ofField (i : UInt8) : StackPair :=
  match i &&& 3 with
  | 0 => .bc
  | 1 => .de
  | 2 => .hl
  | _ => .af

def Pointer.ofField (i : UInt8) : Pointer :=
  match i &&& 3 with
  | 0 => .bc
  | 1 => .de
  | 2 => .hlInc
  | _ => .hlDec

def Condition.ofField (i : UInt8) : Condition :=
  match i &&& 3 with
  | 0 => .notZero
  | 1 => .zero
  | 2 => .notCarry
  | _ => .carry

def AluOp.ofField (i : UInt8) : AluOp :=
  match i &&& 7 with
  | 0 => .add
  | 1 => .adc
  | 2 => .sub
  | 3 => .sbc
  | 4 => .and
  | 5 => .xor
  | 6 => .or
  | _ => .cp

def Rotation.ofField (i : UInt8) : Rotation :=
  match i &&& 3 with
  | 0 => .rlc
  | 1 => .rrc
  | 2 => .rl
  | _ => .rr

def ShiftOp.ofField (i : UInt8) : ShiftOp :=
  match i &&& 7 with
  | 4 => .sla
  | 5 => .sra
  | 6 => .swap
  | 7 => .srl
  | r => .rotate (.ofField r)

namespace Opcode

open Descriptor

/-- The row of an opcode that hangs the CPU. -/
def undefined : Descriptor Instruction := fixed .undefined 1 4

/-- Single instructions on the accumulator and the flags. -/
def accumulator (y : UInt8) : Instruction :=
  match y with
  | 4 => .daa
  | 5 => .cpl
  | 6 => .scf
  | 7 => .ccf
  | r => .rotateA (.ofField r)

/-- Opcodes `00`–`3F`. -/
def firstQuarter (y z : UInt8) : Descriptor Instruction :=
  let pair := y >>> 1
  let odd := y &&& 1 == 1
  match z with
  | 0 =>
    match y with
    | 0 => fixed .nop 1 4
    | 1 => fixed .storeSPAbs 3 20
    | 2 => fixed .stop 2 4
    | 3 => fixed (.jr none) 2 12
    | _ => ⟨.jr (some (.ofField y)), 2, 8, 12⟩
  | 1 => if odd then fixed (.addHL (.ofField pair)) 1 8 else fixed (.ld16Imm (.ofField pair)) 3 12
  | 2 => if odd then fixed (.loadA (.ofField pair)) 1 8 else fixed (.storeA (.ofField pair)) 1 8
  | 3 => if odd then fixed (.dec16 (.ofField pair)) 1 8 else fixed (.inc16 (.ofField pair)) 1 8
  | 4 => fixed (.inc (.ofField y)) 1 ((Operand.ofField y).cost 4 12)
  | 5 => fixed (.dec (.ofField y)) 1 ((Operand.ofField y).cost 4 12)
  | 6 => fixed (.ldImm (.ofField y)) 2 ((Operand.ofField y).cost 8 12)
  | _ => fixed (accumulator y) 1 4

/-- Opcodes `40`–`7F`: loads between operands. The load from `(HL)` to itself is HALT. -/
def loadQuarter (y z : UInt8) : Descriptor Instruction :=
  match Operand.ofField y, Operand.ofField z with
  | .atHL, .atHL => fixed .halt 1 4
  | .reg r, .reg s => fixed (.ld (.reg r) (.reg s)) 1 4
  | dst, src => fixed (.ld dst src) 1 8

/-- Opcodes `80`–`BF`: accumulator operations. -/
def aluQuarter (y z : UInt8) : Descriptor Instruction :=
  fixed (.alu (.ofField y) (.ofField z)) 1 ((Operand.ofField z).cost 4 8)

/-- Opcodes `C0`–`FF`. -/
def lastQuarter (y z : UInt8) : Descriptor Instruction :=
  let pair := y >>> 1
  let odd := y &&& 1 == 1
  match z with
  | 0 =>
    match y with
    | 4 => fixed .storeAHighImm 2 12
    | 5 => fixed .addSPOffset 2 16
    | 6 => fixed .loadAHighImm 2 12
    | 7 => fixed .ldHLOffsetSP 2 12
    | _ => ⟨.ret (some (.ofField y)), 1, 8, 20⟩
  | 1 =>
    match y with
    | 1 => fixed (.ret none) 1 16
    | 3 => fixed .reti 1 16
    | 5 => fixed .jpHL 1 4
    | 7 => fixed .ldSPHL 1 8
    | _ => fixed (.pop (.ofField pair)) 1 12
  | 2 =>
    match y with
    | 4 => fixed .storeAHighC 1 8
    | 5 => fixed .storeAAbs 3 16
    | 6 => fixed .loadAHighC 1 8
    | 7 => fixed .loadAAbs 3 16
    | _ => ⟨.jp (some (.ofField y)), 3, 12, 16⟩
  | 3 =>
    match y with
    | 0 => fixed (.jp none) 3 16
    | 1 => fixed .bitPage 1 4
    | 6 => fixed .di 1 4
    | 7 => fixed .ei 1 4
    | _ => undefined
  | 4 => if y < 4 then ⟨.call (some (.ofField y)), 3, 12, 24⟩ else undefined
  | 5 =>
    if !odd then fixed (.push (.ofField pair)) 1 16
    else if y = 1 then fixed (.call none) 3 24
    else undefined
  | 6 => fixed (.aluImm (.ofField y)) 2 8
  | _ => fixed (.rst (y * 8)) 1 16

end Opcode

/-- The descriptor of an opcode of the base page. -/
def decode (byte : UInt8) : Descriptor Instruction :=
  let y := (byte >>> 3) &&& 7
  let z := byte &&& 7
  match byte >>> 6 with
  | 0 => Opcode.firstQuarter y z
  | 1 => Opcode.loadQuarter y z
  | 2 => Opcode.aluQuarter y z
  | _ => Opcode.lastQuarter y z

/-- The descriptor of a byte of the bit page; the cost includes fetching `CB`. -/
def decodeBit (byte : UInt8) : Descriptor BitInstruction :=
  let y := (byte >>> 3) &&& 7
  let operand := Operand.ofField byte
  match byte >>> 6 with
  | 0 => .fixed (.shift (.ofField y) operand) 2 (operand.cost 8 16)
  | 1 => .fixed (.bit y operand) 2 (operand.cost 8 12)
  | 2 => .fixed (.res y operand) 2 (operand.cost 8 16)
  | _ => .fixed (.set y operand) 2 (operand.cost 8 16)

end Handheld
