import Handheld.Cpu.Instruction

/-!
# Arithmetic and flags

The results and flags of the arithmetic and bit instructions. Carries are stated on natural numbers:
a carry out of bit `k` happened iff the sum of the low parts does not fit into them.

* `Alu.add`, `Alu.sub`: with carry in; everything 8-bit follows from them.
* `Alu.add16`, `Alu.addOffset`: the two 16-bit additions, which take their carries from different
  bits.
* `Alu.decimalAdjust`: makes the result of a packed decimal addition or subtraction decimal again.
-/

namespace Handheld.Alu

def add (a b : UInt8) (carry : Bool) : UInt8 × Flags :=
  let sum := a + b + carry.toUInt8
  (sum,
    { zero := sum == 0
      halfCarry := a.toNat % 16 + b.toNat % 16 + carry.toNat > 0x0F
      carry := a.toNat + b.toNat + carry.toNat > 0xFF })

def sub (a b : UInt8) (carry : Bool) : UInt8 × Flags :=
  let difference := a - b - carry.toUInt8
  (difference,
    { zero := difference == 0
      subtract := true
      halfCarry := a.toNat % 16 < b.toNat % 16 + carry.toNat
      carry := a.toNat < b.toNat + carry.toNat })

/-- An accumulator operation. A comparison is a subtraction whose result is dropped. -/
def apply (op : AluOp) (a b : UInt8) (f : Flags) : UInt8 × Flags :=
  match op with
  | .add => add a b false
  | .adc => add a b f.carry
  | .sub => sub a b false
  | .sbc => sub a b f.carry
  | .and => (a &&& b, { zero := a &&& b == 0, halfCarry := true })
  | .xor => (a ^^^ b, { zero := a ^^^ b == 0 })
  | .or => (a ||| b, { zero := a ||| b == 0 })
  | .cp => (a, (sub a b false).2)

/-- Increment; the carry stays. -/
def inc (v : UInt8) (f : Flags) : UInt8 × Flags :=
  let r := v + 1
  (r, { zero := r == 0, halfCarry := v &&& 0x0F == 0x0F, carry := f.carry })

/-- Decrement; the carry stays. -/
def dec (v : UInt8) (f : Flags) : UInt8 × Flags :=
  let r := v - 1
  (r, { zero := r == 0, subtract := true, halfCarry := v &&& 0x0F == 0, carry := f.carry })

/-- The addition to HL: zero stays, the carries come out of bits 11 and 15. -/
def add16 (a b : UInt16) (f : Flags) : UInt16 × Flags :=
  (a + b,
    { zero := f.zero
      halfCarry := a.toNat % 0x1000 + b.toNat % 0x1000 > 0x0FFF
      carry := a.toNat + b.toNat > 0xFFFF })

/-- A signed offset added to SP: the carries come out of bits 3 and 7 of the unsigned addition. -/
def addOffset (sp : UInt16) (offset : UInt8) : UInt16 × Flags :=
  (sp + signExtend offset,
    { halfCarry := sp.toNat % 16 + offset.toNat % 16 > 0x0F
      carry := sp.toNat % 0x100 + offset.toNat > 0xFF })

/-- A rotation with the bit that fell out. -/
def rotate (r : Rotation) (v : UInt8) (carry : Bool) : UInt8 × Bool :=
  match r with
  | .rlc => ((v <<< 1) ||| (v >>> 7), v &&& 0x80 != 0)
  | .rrc => ((v >>> 1) ||| (v <<< 7), v &&& 1 != 0)
  | .rl => ((v <<< 1) ||| carry.toUInt8, v &&& 0x80 != 0)
  | .rr => ((v >>> 1) ||| (carry.toUInt8 <<< 7), v &&& 1 != 0)

/-- A rotation or shift with the bit that fell out; a swap of the nibbles loses none. -/
def shiftOut (op : ShiftOp) (v : UInt8) (carry : Bool) : UInt8 × Bool :=
  match op with
  | .rotate r => rotate r v carry
  | .sla => (v <<< 1, v &&& 0x80 != 0)
  | .sra => ((v >>> 1) ||| (v &&& 0x80), v &&& 1 != 0)
  | .swap => ((v <<< 4) ||| (v >>> 4), false)
  | .srl => (v >>> 1, v &&& 1 != 0)

def shift (op : ShiftOp) (v : UInt8) (f : Flags) : UInt8 × Flags :=
  let (r, out) := shiftOut op v f.carry
  (r, { zero := r == 0, carry := out })

/-- The rotations of the accumulator clear the zero flag. -/
def rotateA (r : Rotation) (a : UInt8) (f : Flags) : UInt8 × Flags :=
  let (v, out) := rotate r a f.carry
  (v, { carry := out })

/-- The flags of a bit test. -/
def testBit (n v : UInt8) (f : Flags) : Flags :=
  { zero := v &&& (1 <<< n) == 0, halfCarry := true, carry := f.carry }

/-- Decimal adjustment. After an addition a digit above nine is corrected too; after a subtraction
only the carries count. -/
def decimalAdjust (a : UInt8) (f : Flags) : UInt8 × Flags :=
  if f.subtract then
    let r := a - (if f.carry then 0x60 else 0) - (if f.halfCarry then 0x06 else 0)
    (r, { zero := r == 0, subtract := true, carry := f.carry })
  else
    let high := f.carry || a > 0x99
    let low := f.halfCarry || a &&& 0x0F > 0x09
    let r := a + (if high then 0x60 else 0) + (if low then 0x06 else 0)
    (r, { zero := r == 0, carry := high })

def complement (a : UInt8) (f : Flags) : UInt8 × Flags :=
  (~~~a, { f with subtract := true, halfCarry := true })

def setCarry (f : Flags) : Flags := { zero := f.zero, carry := true }

def flipCarry (f : Flags) : Flags := { zero := f.zero, carry := !f.carry }

end Handheld.Alu
