import Handheld.Cpu.Registers
import Handheld.Model

/-!
# CPU state

* `Cpu.afterBoot`: the registers as the boot image leaves them, which tell the cartridge what
  hardware it runs on.
-/

namespace Handheld

/-- What the CPU is doing. -/
inductive Cpu.Activity where
  | running
  /-- Waiting for an interrupt. -/
  | halted
  /-- Waiting for a button. -/
  | stopped
  /-- Hung by an undefined opcode; only a reset leaves this. -/
  | locked
  deriving DecidableEq

def Cpu.Activity.name : Cpu.Activity → String
  | running => "running"
  | halted => "halted"
  | stopped => "stopped"
  | locked => "locked"

structure Cpu where
  registers : Registers := {}
  /-- The interrupt master enable. -/
  ime : Bool := false
  activity : Cpu.Activity := .running
  /-- The next opcode is read without advancing the program counter. -/
  haltBug : Bool := false
  /-- Instructions left until an EI takes effect, the one under way included. -/
  eiDelay : Nat := 0
  deriving DecidableEq

namespace Cpu

/-- The four register pairs that the boot image sets. A monochrome cartridge on color hardware finds
the hardware's accumulator but other pointers. -/
def afterBootRegisters (model : Model) (monoCartridge : Bool) : Registers :=
  let r : Registers := { sp := 0xFFFE, pc := 0x0100 }
  match model with
  | .mono => (((r.setAF 0x01B0).setBC 0x0013).setDE 0x00D8).setHL 0x014D
  | .color =>
    let r := (r.setAF 0x1180).setBC 0x0000
    if monoCartridge then (r.setDE 0x0008).setHL 0x007C else (r.setDE 0xFF56).setHL 0x000D

/-- The CPU as the boot image hands it over at `0100`. -/
def afterBoot (model : Model) (monoCartridge : Bool) : Cpu :=
  { registers := afterBootRegisters model monoCartridge }

end Cpu

end Handheld
