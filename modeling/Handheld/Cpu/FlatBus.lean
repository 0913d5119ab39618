import Handheld.Cpu.Bus

/-!
# A flat bus

The plainest machine around a CPU: 64 KiB of memory and the interrupt registers, no peripherals.
Every bus cycle takes four dots. The remaining inputs of a CPU — a button, an armed speed switch, a
request that arrives between two bus cycles — are fields that can be set.

* `MemoryBus`: the same without speed switch, divider and buttons.
-/

namespace Handheld

structure FlatBus where
  memory : Vector UInt8 0x10000 := .replicate 0x10000 0
  interrupts : Interrupts := {}
  speedArmed : Bool := false
  lineLow : Bool := false
  /-- A value that is written to IF after so many more bus cycles. -/
  scheduled : Option (Nat × UInt8) := none

namespace FlatBus

def cell (addr : UInt16) : Fin 0x10000 := ⟨addr.toNat, addr.toNat_lt⟩

def peek (b : FlatBus) (addr : UInt16) : UInt8 := b.memory[cell addr]

def poke (b : FlatBus) (addr : UInt16) (v : UInt8) : FlatBus :=
  { b with memory := b.memory.set (cell addr) v }

def read (b : FlatBus) (addr : UInt16) : UInt8 :=
  match addr with
  | 0xFF0F => b.interrupts.readFlags
  | 0xFFFF => b.interrupts.readEnable
  | _ => b.peek addr

def write (b : FlatBus) (addr : UInt16) (v : UInt8) : FlatBus :=
  match addr with
  | 0xFF0F => { b with interrupts := b.interrupts.writeFlags v }
  | 0xFFFF => { b with interrupts := b.interrupts.writeEnable v }
  | _ => b.poke addr v

/-- One bus cycle brings a scheduled write to IF closer, or performs it. -/
def tick (b : FlatBus) : FlatBus :=
  match b.scheduled with
  | none => b
  | some (0, v) => { b with interrupts := b.interrupts.writeFlags v, scheduled := none }
  | some (n + 1, v) => { b with scheduled := some (n, v) }

instance : Bus FlatBus where
  read8 b addr := (b.read addr, b)
  write8 b addr v := pure (b.write addr v)
  tick b := pure (4, b.tick)
  interrupts b := b.interrupts
  setInterrupts b i := { b with interrupts := i }
  switchSpeed b := pure (b.speedArmed, { b with speedArmed := false })
  buttonHeld b := b.lineLow

end FlatBus

/-- A flat bus that leaves out all that a bus need not have. -/
structure MemoryBus where
  flat : FlatBus := {}

instance : Bus MemoryBus where
  read8 b addr := (b.flat.read addr, b)
  write8 b addr v := pure { b with flat := b.flat.write addr v }
  tick b := pure (4, { b with flat := b.flat.tick })
  interrupts b := b.flat.interrupts
  setInterrupts b i := { b with flat.interrupts := i }

end Handheld
