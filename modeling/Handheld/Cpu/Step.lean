import Handheld.Cpu.Alu
import Handheld.Cpu.Basic
import Handheld.Cpu.Bus
import Handheld.Cpu.Opcode

/-!
# Executing instructions

A step is one instruction, or one idle bus cycle, and then the entry into an interrupt handler if
one is due. Time passes only in `Core.tick`, which every bus access ends with.

* `Core.execute`, `Core.executeBit`: the effect of each instruction, with its bus cycles in order.
* `Core.act`, `Core.service`: the two halves of a step. A CPU that is stopped or hangs is out of the
  reach of interrupts.
* `Core.dispatch`: five bus cycles into a handler; which one is decided after the first push.
* `Cpu.step`: one step on a bus, with the dots that it took.
-/

namespace Handheld

/-- The CPU at work on a bus: both states, the dots of the step so far and the events reported. -/
structure Core (β : Type) where
  cpu : Cpu
  bus : β
  dots : Nat := 0
  events : List Event := []

namespace Core

variable {β : Type} [Bus β]

def report (c : Core β) (e : Event) : Core β := { c with events := c.events ++ [e] }

-- `tick` and `write` take the state apart before they use the bus, so that the bus is not shared
-- and can be updated in place.

/-- One bus cycle. -/
@[specialize] def tick : Core β → Core β
  | ⟨cpu, bus, dots, events⟩ =>
    let t := Bus.tick bus
    ⟨cpu, t.value.2, dots + t.value.1, Logged.join events t.events⟩

@[specialize] def read (c : Core β) (addr : UInt16) : UInt8 × Core β :=
  let (v, bus) := Bus.read8 c.bus addr
  (v, { c with bus := bus }.tick)

@[specialize] def write : Core β → UInt16 → UInt8 → Core β
  | ⟨cpu, bus, dots, events⟩, addr, v =>
    let w := Bus.write8 bus addr v
    tick ⟨cpu, w.value, dots, Logged.join events w.events⟩

def registers (c : Core β) : Registers := c.cpu.registers

def modify (c : Core β) (f : Registers → Registers) : Core β :=
  { c with cpu.registers := f c.cpu.registers }

def setPC (c : Core β) (w : UInt16) : Core β := c.modify ({ · with pc := w })

def setSP (c : Core β) (w : UInt16) : Core β := c.modify ({ · with sp := w })

def setA (c : Core β) (v : UInt8) : Core β := c.modify ({ · with a := v })

def setFlags (c : Core β) (f : Flags) : Core β := c.modify ({ · with flags := f })

/-- Stores a result in A together with its flags. -/
def setResult (c : Core β) (r : UInt8 × Flags) : Core β :=
  c.modify ({ · with a := r.1, flags := r.2 })

def setActivity (c : Core β) (a : Cpu.Activity) : Core β := { c with cpu.activity := a }

def setIME (c : Core β) (on : Bool) : Core β := { c with cpu.ime := on }

/-- Reads the byte at the program counter and moves on. -/
@[specialize] def fetch8 (c : Core β) : UInt8 × Core β :=
  let (v, c) := c.read c.registers.pc
  (v, c.setPC (c.registers.pc + 1))

@[specialize] def fetch16 (c : Core β) : UInt16 × Core β :=
  let (l, c) := c.fetch8
  let (h, c) := c.fetch8
  (word h l, c)

@[specialize] def load (c : Core β) : Operand → UInt8 × Core β
  | .reg r => (c.registers.get8 r, c)
  | .atHL => c.read c.registers.hl

@[specialize] def store (c : Core β) (dst : Operand) (v : UInt8) : Core β :=
  match dst with
  | .reg r => c.modify (·.set8 r v)
  | .atHL => c.write c.registers.hl v

/-- The address in a pointer; a stepping one moves on. -/
def pointer (c : Core β) : Pointer → UInt16 × Core β
  | .bc => (c.registers.bc, c)
  | .de => (c.registers.de, c)
  | .hlInc => (c.registers.hl, c.modify fun r => r.setHL (r.hl + 1))
  | .hlDec => (c.registers.hl, c.modify fun r => r.setHL (r.hl - 1))

/-- The address of a port on the last page. -/
def highPage (offset : UInt8) : UInt16 := word 0xFF offset

/-- Pushes a byte; the stack grows downwards. -/
@[specialize] def pushByte (c : Core β) (v : UInt8) : Core β :=
  let sp := c.registers.sp - 1
  (c.setSP sp).write sp v

@[specialize] def popByte (c : Core β) : UInt8 × Core β :=
  let (v, c) := c.read c.registers.sp
  (v, c.setSP (c.registers.sp + 1))

/-- Pushes a word, high byte first. -/
@[specialize] def push (c : Core β) (w : UInt16) : Core β :=
  (c.pushByte (highByte w)).pushByte (lowByte w)

@[specialize] def pop (c : Core β) : UInt16 × Core β :=
  let (l, c) := c.popByte
  let (h, c) := c.popByte
  (word h l, c)

/-! ## Instructions -/

/-- HALT waits, unless it finds an interrupt that cannot be serviced: then it fails to stop the CPU
and the program counter misses a step. -/
def halt (c : Core β) : Core β :=
  let pending := (Bus.interrupts c.bus).pending != 0
  if c.cpu.ime || !pending || c.cpu.eiDelay > 0 then c.setActivity .halted
  else { c with cpu.haltBug := true }

/-- STOP skips its second byte without reading it. It switches the speed if that is armed, else it
clears the divider and waits for a button. -/
@[specialize] def stop (c : Core β) : Core β :=
  let c := c.setPC (c.registers.pc + 1)
  let s := Bus.switchSpeed c.bus
  let c := { c with bus := s.value.2, events := Logged.join c.events s.events }
  if s.value.1 then c
  else
    let c := { c with bus := Bus.clearDivider c.bus }
    if Bus.buttonHeld c.bus then c else c.setActivity .stopped

/-- Replaces an operand by the result of an operation on it that sets flags. -/
@[specialize] def update (c : Core β) (dst : Operand) (f : UInt8 → Flags → UInt8 × Flags) :
    Core β :=
  let (v, c) := c.load dst
  let (r, flags) := f v c.registers.flags
  (c.setFlags flags).store dst r

/-- Takes a word from the stack as the program counter. -/
@[specialize] def returnFrom (c : Core β) : Core β :=
  let (w, c) := c.pop
  (c.setPC w).tick

@[specialize] def executeBit (c : Core β) : BitInstruction → Core β
  | .shift op dst => c.update dst (Alu.shift op)
  | .bit n src =>
    let (v, c) := c.load src
    c.setFlags (Alu.testBit n v c.registers.flags)
  | .res n dst =>
    let (v, c) := c.load dst
    c.store dst (v &&& ~~~(1 <<< n))
  | .set n dst =>
    let (v, c) := c.load dst
    c.store dst (v ||| (1 <<< n))

@[specialize] def execute (c : Core β) : Instruction → Core β
  | .nop => c
  | .stop => c.stop
  | .halt => c.halt
  | .di => { c with cpu.ime := false, cpu.eiDelay := 0 }
  | .ei => { c with cpu.eiDelay := 2 }
  | .ld dst src =>
    let (v, c) := c.load src
    c.store dst v
  | .ldImm dst =>
    let (v, c) := c.fetch8
    c.store dst v
  | .ld16Imm dst =>
    let (w, c) := c.fetch16
    c.modify (·.set16 dst w)
  | .storeA p =>
    let (addr, c) := c.pointer p
    c.write addr c.registers.a
  | .loadA p =>
    let (addr, c) := c.pointer p
    let (v, c) := c.read addr
    c.setA v
  | .storeSPAbs =>
    let (addr, c) := c.fetch16
    let sp := c.registers.sp
    (c.write addr (lowByte sp)).write (addr + 1) (highByte sp)
  | .storeAAbs =>
    let (addr, c) := c.fetch16
    c.write addr c.registers.a
  | .loadAAbs =>
    let (addr, c) := c.fetch16
    let (v, c) := c.read addr
    c.setA v
  | .storeAHighImm =>
    let (offset, c) := c.fetch8
    c.write (highPage offset) c.registers.a
  | .loadAHighImm =>
    let (offset, c) := c.fetch8
    let (v, c) := c.read (highPage offset)
    c.setA v
  | .storeAHighC => c.write (highPage c.registers.c) c.registers.a
  | .loadAHighC =>
    let (v, c) := c.read (highPage c.registers.c)
    c.setA v
  | .ldHLOffsetSP =>
    let (offset, c) := c.fetch8
    let (w, flags) := Alu.addOffset c.registers.sp offset
    (c.modify fun r => { r.setHL w with flags := flags }).tick
  | .ldSPHL => (c.setSP c.registers.hl).tick
  | .inc dst => c.update dst Alu.inc
  | .dec dst => c.update dst Alu.dec
  | .inc16 dst => (c.modify fun r => r.set16 dst (r.get16 dst + 1)).tick
  | .dec16 dst => (c.modify fun r => r.set16 dst (r.get16 dst - 1)).tick
  | .addHL src =>
    let (w, flags) := Alu.add16 c.registers.hl (c.registers.get16 src) c.registers.flags
    (c.modify fun r => { r.setHL w with flags := flags }).tick
  | .addSPOffset =>
    let (offset, c) := c.fetch8
    let (w, flags) := Alu.addOffset c.registers.sp offset
    (c.modify ({ · with sp := w, flags := flags })).tick.tick
  | .alu op src =>
    let (v, c) := c.load src
    c.setResult (Alu.apply op c.registers.a v c.registers.flags)
  | .aluImm op =>
    let (v, c) := c.fetch8
    c.setResult (Alu.apply op c.registers.a v c.registers.flags)
  | .rotateA r => c.setResult (Alu.rotateA r c.registers.a c.registers.flags)
  | .daa => c.setResult (Alu.decimalAdjust c.registers.a c.registers.flags)
  | .cpl => c.setResult (Alu.complement c.registers.a c.registers.flags)
  | .scf => c.setFlags (Alu.setCarry c.registers.flags)
  | .ccf => c.setFlags (Alu.flipCarry c.registers.flags)
  | .jr cond =>
    let (offset, c) := c.fetch8
    if Condition.allows c.registers.flags cond then
      (c.setPC (c.registers.pc + signExtend offset)).tick
    else c
  | .jp cond =>
    let (addr, c) := c.fetch16
    if Condition.allows c.registers.flags cond then (c.setPC addr).tick else c
  | .jpHL => c.setPC c.registers.hl
  | .call cond =>
    let (addr, c) := c.fetch16
    if Condition.allows c.registers.flags cond then
      (c.tick.push c.registers.pc).setPC addr
    else c
  | .ret none => c.returnFrom
  | .ret (some cond) =>
    let c := c.tick
    if cond.holds c.registers.flags then c.returnFrom else c
  | .reti => c.returnFrom.setIME true
  | .rst target => (c.tick.push c.registers.pc).setPC target.toUInt16
  | .push src => c.tick.push (c.registers.getPair src)
  | .pop dst =>
    let (w, c) := c.pop
    c.modify (·.setPair dst w)
  | .bitPage =>
    let (byte, c) := c.fetch8
    c.executeBit (decodeBit byte).op
  | .undefined => c.setActivity .locked

/-- Acknowledges the highest pending source; returns where its handler starts. When the push has
just withdrawn the last one, execution continues at `0000`. -/
def acknowledge (c : Core β) : UInt16 × Core β :=
  let i := Bus.interrupts c.bus
  match i.highest? with
  | some s => (s.vector, { c with bus := Bus.setInterrupts c.bus (i.clear s) })
  | none => (0, c)

/-- Enters an interrupt handler. The pending sources are sampled between the two pushes, because
the first may hit IE. -/
@[specialize] def dispatch (c : Core β) : Core β :=
  let pc := c.registers.pc
  let c := (c.setIME false).tick.tick
  let (target, c) := (c.pushByte (highByte pc)).acknowledge
  ((c.pushByte (lowByte pc)).setPC target).tick

/-- Wakes the CPU from HALT if a source is pending, and enters its handler if IME is set. -/
@[specialize] def service (c : Core β) : Core β :=
  match c.cpu.activity with
  | .stopped | .locked => c
  | .running | .halted =>
    if (Bus.interrupts c.bus).pending = 0 then c
    else
      let c := c.setActivity .running
      if c.cpu.ime then c.dispatch else c

/-- Reads the opcode; after a failed HALT the program counter stays. -/
@[specialize] def fetchOpcode (c : Core β) : UInt8 × Core β :=
  if c.cpu.haltBug then { c with cpu.haltBug := false }.read c.registers.pc
  else c.fetch8

/-- Lets an EI of the previous instruction take effect, unless a DI came in between. -/
def settleIME (c : Core β) (due : Bool) : Core β :=
  { c with
    cpu.ime := c.cpu.ime || (due && c.cpu.eiDelay > 0)
    cpu.eiDelay := c.cpu.eiDelay - 1 }

/-- Fetches and executes one instruction. -/
@[specialize] def runInstruction (c : Core β) : Core β :=
  let due := c.cpu.eiDelay == 1
  let pc := c.registers.pc
  let (byte, c) := c.fetchOpcode
  let op := (decode byte).op
  let c := (c.report (.instruction pc byte op c.registers)).execute op
  match c.cpu.activity with
  | .locked => c.report (.cpuLocked byte pc)
  | _ => c.settleIME due

/-- The dots of a step in which the CPU does not touch the bus. -/
def idleDots : Nat := 4

/-- A step up to its interrupt check: one instruction, or idling. -/
@[specialize] def act (c : Core β) : Core β :=
  match c.cpu.activity with
  | .running => c.runInstruction
  | .halted | .locked => c.tick
  | .stopped =>
    if Bus.buttonHeld c.bus then (c.setActivity .running).runInstruction
    else { c with dots := c.dots + idleDots }

@[specialize] def step (c : Core β) : Core β := c.act.service

end Core

/-- Executes one instruction, or idles for one bus cycle while the CPU waits, and then enters a due
interrupt handler. -/
@[specialize] def Cpu.step {β : Type} [Bus β] (cpu : Cpu) (bus : β) : Core β :=
  Core.step { cpu, bus }

end Handheld
