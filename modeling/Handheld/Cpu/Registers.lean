import Handheld.Word
import Handheld.Text.Number

/-!
# CPU registers

Seven 8-bit registers, the flags, the stack pointer and the program counter. `B`/`C`, `D`/`E` and
`H`/`L` are also used as pairs; the flags are the low byte of the pair `AF`.

* `Flags.toByte`, `Flags.ofByte`: the flags occupy the high nibble of `F`; the low nibble is zero.
-/

namespace Handheld

/-- The condition flags. -/
structure Flags where
  zero : Bool := false
  subtract : Bool := false
  halfCarry : Bool := false
  carry : Bool := false
  deriving DecidableEq

namespace Flags

def toByte (f : Flags) : UInt8 :=
  (bif f.zero then 0x80 else 0) ||| (bif f.subtract then 0x40 else 0) |||
    (bif f.halfCarry then 0x20 else 0) ||| (bif f.carry then 0x10 else 0)

/-- The low nibble has no flags and is dropped. -/
def ofByte (v : UInt8) : Flags where
  zero := v &&& 0x80 != 0
  subtract := v &&& 0x40 != 0
  halfCarry := v &&& 0x20 != 0
  carry := v &&& 0x10 != 0

@[simp] theorem ofByte_toByte (f : Flags) : ofByte f.toByte = f := by
  rcases f with ⟨_ | _, _ | _, _ | _, _ | _⟩ <;> rfl

/-- Of a byte that is written to `F` only the high nibble comes back. -/
theorem toByte_ofByte (v : UInt8) : (ofByte v).toByte = v &&& 0xF0 :=
  forall_byte (P := fun v => (ofByte v).toByte = v &&& 0xF0) (by decide +kernel) v

end Flags

/-- The names of the 8-bit registers that instructions can name. -/
inductive Reg8 where
  | b
  | c
  | d
  | e
  | h
  | l
  | a
  deriving DecidableEq

/-- The 16-bit registers of loads and arithmetic. -/
inductive Reg16 where
  | bc
  | de
  | hl
  | sp
  deriving DecidableEq

/-- The 16-bit registers of PUSH and POP. -/
inductive StackPair where
  | bc
  | de
  | hl
  | af
  deriving DecidableEq

structure Registers where
  a : UInt8 := 0
  flags : Flags := {}
  b : UInt8 := 0
  c : UInt8 := 0
  d : UInt8 := 0
  e : UInt8 := 0
  h : UInt8 := 0
  l : UInt8 := 0
  sp : UInt16 := 0
  pc : UInt16 := 0
  deriving DecidableEq

namespace Registers

def af (r : Registers) : UInt16 := word r.a r.flags.toByte

def bc (r : Registers) : UInt16 := word r.b r.c

def de (r : Registers) : UInt16 := word r.d r.e

def hl (r : Registers) : UInt16 := word r.h r.l

def setAF (r : Registers) (w : UInt16) : Registers :=
  { r with a := highByte w, flags := .ofByte (lowByte w) }

def setBC (r : Registers) (w : UInt16) : Registers := { r with b := highByte w, c := lowByte w }

def setDE (r : Registers) (w : UInt16) : Registers := { r with d := highByte w, e := lowByte w }

def setHL (r : Registers) (w : UInt16) : Registers := { r with h := highByte w, l := lowByte w }

def get8 (r : Registers) : Reg8 → UInt8
  | .b => r.b
  | .c => r.c
  | .d => r.d
  | .e => r.e
  | .h => r.h
  | .l => r.l
  | .a => r.a

def set8 (r : Registers) (n : Reg8) (v : UInt8) : Registers :=
  match n with
  | .b => { r with b := v }
  | .c => { r with c := v }
  | .d => { r with d := v }
  | .e => { r with e := v }
  | .h => { r with h := v }
  | .l => { r with l := v }
  | .a => { r with a := v }

def get16 (r : Registers) : Reg16 → UInt16
  | .bc => r.bc
  | .de => r.de
  | .hl => r.hl
  | .sp => r.sp

def set16 (r : Registers) (n : Reg16) (w : UInt16) : Registers :=
  match n with
  | .bc => r.setBC w
  | .de => r.setDE w
  | .hl => r.setHL w
  | .sp => { r with sp := w }

def getPair (r : Registers) : StackPair → UInt16
  | .bc => r.bc
  | .de => r.de
  | .hl => r.hl
  | .af => r.af

def setPair (r : Registers) (n : StackPair) (w : UInt16) : Registers :=
  match n with
  | .bc => r.setBC w
  | .de => r.setDE w
  | .hl => r.setHL w
  | .af => r.setAF w

/-- The register dump of log lines. -/
def text (r : Registers) : String :=
  let field (name : String) (w : UInt16) := name ++ ":" ++ Text.upperHex 4 w.toNat
  " ".intercalate
    [field "AF" r.af, field "BC" r.bc, field "DE" r.de, field "HL" r.hl,
      field "PC" r.pc, field "SP" r.sp]

end Registers

end Handheld
