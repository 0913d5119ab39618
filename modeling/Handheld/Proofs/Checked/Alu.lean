import Handheld.Cpu.Alu
import Handheld.Cpu.Opcode
import Handheld.Interrupts
import Handheld.Proofs.Checked.Basic

/-!
# Checked arithmetic of the CPU

Carries come from sums in wider types: eight bits for a sum of nibbles, sixteen for one of bytes,
thirty-two for one of words. The results themselves wrap. Bit numbers come from the opcode.

* `checkedApply_eq`, `checkedAdd16_eq`, `checkedAddOffset_eq`: no operands make a sum overflow.
* `decodeBit_index`: no opcode names a bit that a byte does not have.
* `Cpu.arithmetic_faultless`: whatever the CPU computes itself.
-/

namespace Handheld.Alu

open Checked

/-- The sums behind the flags of an addition. -/
def checkedAdd (a b : UInt8) (carry : Bool) : Checked (UInt8 × Flags) := do
  let low ← unsigned 8 (a.toNat % 16 + b.toNat % 16)
  let low ← unsigned 8 (low + carry.toNat)
  let all ← unsigned 16 (a.toNat + b.toNat)
  let all ← unsigned 16 (all + carry.toNat)
  let sum := a + b + carry.toUInt8
  return (sum, { zero := sum == 0, halfCarry := low > 0x0F, carry := all > 0xFF })

def checkedSub (a b : UInt8) (carry : Bool) : Checked (UInt8 × Flags) := do
  let low ← unsigned 8 (b.toNat % 16 + carry.toNat)
  let all ← unsigned 16 (b.toNat + carry.toNat)
  let difference := a - b - carry.toUInt8
  return (difference,
    { zero := difference == 0
      subtract := true
      halfCarry := a.toNat % 16 < low
      carry := a.toNat < all })

def checkedApply (op : AluOp) (a b : UInt8) (f : Flags) : Checked (UInt8 × Flags) :=
  match op with
  | .add => checkedAdd a b false
  | .adc => checkedAdd a b f.carry
  | .sub => checkedSub a b false
  | .sbc => checkedSub a b f.carry
  | .cp => do
    let (_, flags) ← checkedSub a b false
    return (a, flags)
  | .and | .xor | .or => return apply op a b f

def checkedAdd16 (a b : UInt16) (f : Flags) : Checked (UInt16 × Flags) := do
  let low ← unsigned 16 (a.toNat % 0x1000 + b.toNat % 0x1000)
  let all ← unsigned 32 (a.toNat + b.toNat)
  return (a + b, { zero := f.zero, halfCarry := low > 0x0FFF, carry := all > 0xFFFF })

def checkedAddOffset (sp : UInt16) (offset : UInt8) : Checked (UInt16 × Flags) := do
  let low ← unsigned 16 (sp.toNat % 16 + offset.toNat % 16)
  let all ← unsigned 16 (sp.toNat % 0x100 + offset.toNat)
  return (sp + signExtend offset, { halfCarry := low > 0x0F, carry := all > 0xFF })

/-- The byte with one bit set. -/
def checkedBit (n : UInt8) : Checked UInt8 := do
  let n ← amount 8 n.toNat
  return 1 <<< n.toUInt8

variable (a b : UInt8) (carry : Bool)

theorem checkedAdd_eq : checkedAdd a b carry = .ok (add a b carry) := by
  have ha := a.toNat_lt
  have hb := b.toNat_lt
  have hc := Bool.toNat_le carry
  have hlow : a.toNat % 16 + b.toNat % 16 + carry.toNat < 2 ^ 8 := by omega
  have hall : a.toNat + b.toNat + carry.toNat < 2 ^ 16 := by omega
  have hlow' : a.toNat % 16 + b.toNat % 16 < 2 ^ 8 := by omega
  have hall' : a.toNat + b.toNat < 2 ^ 16 := by omega
  simp only [checkedAdd, unsigned_ok hlow', unsigned_ok hlow, unsigned_ok hall', unsigned_ok hall,
    ok_bind, pure_eq_ok]
  rfl

theorem checkedSub_eq : checkedSub a b carry = .ok (sub a b carry) := by
  have hb := b.toNat_lt
  have hc := Bool.toNat_le carry
  have hlow : b.toNat % 16 + carry.toNat < 2 ^ 8 := by omega
  have hall : b.toNat + carry.toNat < 2 ^ 16 := by omega
  simp only [checkedSub, unsigned_ok hlow, unsigned_ok hall, ok_bind, pure_eq_ok]
  rfl

/-- **No accumulator operation overflows.** -/
theorem checkedApply_eq (op : AluOp) (f : Flags) :
    checkedApply op a b f = .ok (apply op a b f) := by
  cases op with
  | add | adc => exact checkedAdd_eq ..
  | sub | sbc => exact checkedSub_eq ..
  | cp => rw [checkedApply, checkedSub_eq, ok_bind]; rfl
  | and | xor | or => rfl

theorem checkedAdd16_eq (a b : UInt16) (f : Flags) : checkedAdd16 a b f = .ok (add16 a b f) := by
  have ha := a.toNat_lt
  have hb := b.toNat_lt
  have hlow : a.toNat % 0x1000 + b.toNat % 0x1000 < 2 ^ 16 := by omega
  have hall : a.toNat + b.toNat < 2 ^ 32 := by omega
  simp only [checkedAdd16, unsigned_ok hlow, unsigned_ok hall, ok_bind, pure_eq_ok]
  rfl

theorem checkedAddOffset_eq (sp : UInt16) (offset : UInt8) :
    checkedAddOffset sp offset = .ok (addOffset sp offset) := by
  have ho := offset.toNat_lt
  have hlow : sp.toNat % 16 + offset.toNat % 16 < 2 ^ 16 := by omega
  have hall : sp.toNat % 0x100 + offset.toNat < 2 ^ 16 := by omega
  simp only [checkedAddOffset, unsigned_ok hlow, unsigned_ok hall, ok_bind, pure_eq_ok]
  rfl

theorem checkedBit_eq {n : UInt8} (h : n < 8) : checkedBit n = .ok (1 <<< n) := by
  have hn : n.toNat < 8 := UInt8.lt_iff_toNat_lt.1 h
  simp [checkedBit, amount_ok hn]

end Handheld.Alu

namespace Handheld

open Checked

/-- The bit that an instruction names. -/
def BitInstruction.index? : BitInstruction → Option UInt8
  | shift .. => none
  | bit n _ | res n _ | set n _ => some n

/-- **No opcode names a bit that a byte does not have.** -/
theorem decodeBit_index {byte n : UInt8} (h : (decodeBit byte).op.index? = some n) :
    Alu.checkedBit n = .ok (1 <<< n) := by
  have hall : ((decodeBit byte).op.index?).all (· < 8) = true :=
    forall_byte (P := fun v => ((decodeBit v).op.index?).all (· < 8) = true)
      (by decide +kernel) byte
  rw [h] at hall
  exact Alu.checkedBit_eq (by simpa using hall)

/-- The opcode's entry in the table of its page. -/
def checkedDecode (byte : UInt8) : Checked (Descriptor Instruction) := do
  let _ ← place 0x100 byte.toNat
  return decode byte

/-- The bit that a source owns. -/
def Source.checkedBit (s : Source) : Checked UInt8 := Alu.checkedBit s.index

def Source.checkedVector (s : Source) : Checked UInt16 := do
  let offset ← unsigned 16 (8 * s.index.toNat)
  let v ← unsigned 16 (0x40 + offset)
  return v.toUInt16

/-- The count that delays EI. -/
def Cpu.checkedCountDown (delay : Nat) : Checked Nat :=
  if delay > 0 then minus delay 1 else return 0

/-- **The arithmetic of the CPU meets no fault**, for any opcode, operands and flags. -/
structure Cpu.Faultless : Prop where
  decode (byte : UInt8) : checkedDecode byte = .ok (decode byte)
  apply (op : AluOp) (a b : UInt8) (f : Flags) :
    Alu.checkedApply op a b f = .ok (Alu.apply op a b f)
  add16 (a b : UInt16) (f : Flags) : Alu.checkedAdd16 a b f = .ok (Alu.add16 a b f)
  addOffset (sp : UInt16) (offset : UInt8) :
    Alu.checkedAddOffset sp offset = .ok (Alu.addOffset sp offset)
  bit (byte n : UInt8) (h : (decodeBit byte).op.index? = some n) :
    Alu.checkedBit n = .ok (1 <<< n)
  source (s : Source) : s.checkedBit = .ok s.bit ∧ s.checkedVector = .ok s.vector
  delay (n : Nat) : checkedCountDown n = .ok (n - 1)

theorem Cpu.checkedCountDown_eq (n : Nat) : checkedCountDown n = .ok (n - 1) := by
  cases n with
  | zero => rfl
  | succ n => exact minus_ok (Nat.le_add_left 1 n)

theorem checkedDecode_eq (byte : UInt8) : checkedDecode byte = .ok (decode byte) := by
  rw [checkedDecode, place_ok byte.toNat_lt]
  rfl

theorem Cpu.arithmetic_faultless : Cpu.Faultless where
  decode := checkedDecode_eq
  apply op a b f := Alu.checkedApply_eq a b op f
  add16 := Alu.checkedAdd16_eq
  addOffset := Alu.checkedAddOffset_eq
  bit _ _ h := decodeBit_index h
  source s := by cases s <;> exact ⟨rfl, rfl⟩
  delay := Cpu.checkedCountDown_eq

end Handheld
