import Handheld.Proofs.Cpu.Work

/-!
# A bus that shows another one

A bus may keep more than the CPU can see. If what it keeps besides never changes an answer, then a CPU
on it does what it does on the bus that it shows.

* `Shows`: the obligations of the two buses, operation by operation.
* `Core.seen`: the same CPU on the bus that is shown.
* `seen_execute`, `seen_step`: an instruction, and a step, cannot tell the two apart.
-/

namespace Handheld

/-- **`f` tells which bus a bus shows**: every operation is that of the bus shown. -/
structure Shows {γ β : Type} [Bus γ] [Bus β] (f : γ → β) : Prop where
  read8 (g : γ) (addr : UInt16) :
    Bus.read8 (f g) addr = ((Bus.read8 g addr).1, f (Bus.read8 g addr).2)
  write8 (g : γ) (addr : UInt16) (v : UInt8) : Bus.write8 (f g) addr v = f <$> Bus.write8 g addr v
  tick (g : γ) : Bus.tick (f g) = (fun r => (r.1, f r.2)) <$> Bus.tick g
  interrupts (g : γ) : Bus.interrupts (f g) = Bus.interrupts g
  setInterrupts (g : γ) (i : Interrupts) : Bus.setInterrupts (f g) i = f (Bus.setInterrupts g i)
  clearDivider (g : γ) : Bus.clearDivider (f g) = f (Bus.clearDivider g)
  switchSpeed (g : γ) : Bus.switchSpeed (f g) = (fun r => (r.1, f r.2)) <$> Bus.switchSpeed g
  buttonHeld (g : γ) : Bus.buttonHeld (f g) = Bus.buttonHeld g

namespace Core

variable {γ β : Type} {f : γ → β}

/-- The same CPU on the bus that is shown. -/
def seen (f : γ → β) (c : Core γ) : Core β := ⟨c.cpu, f c.bus, c.dots, c.events⟩

theorem seen_cpu (c : Core γ) : (c.seen f).cpu = c.cpu := rfl

theorem seen_registers (c : Core γ) : (c.seen f).registers = c.registers := rfl

theorem seen_setPC (c : Core γ) (w : UInt16) : (c.setPC w).seen f = (c.seen f).setPC w := rfl

theorem seen_setIME (c : Core γ) (on : Bool) : (c.setIME on).seen f = (c.seen f).setIME on := rfl

theorem seen_pointer (c : Core γ) (p : Pointer) :
    (c.seen f).pointer p = ((c.pointer p).1, (c.pointer p).2.seen f) := by
  cases p <;> rfl

variable [Bus γ] [Bus β] (h : Shows f)

include h

theorem seen_tick (c : Core γ) : c.tick.seen f = (c.seen f).tick := by
  simp only [tick, seen, h.tick, Logged.value_map, Logged.events_map]

theorem seen_read (c : Core γ) (addr : UInt16) :
    (c.seen f).read addr = ((c.read addr).1, (c.read addr).2.seen f) := by
  have hr := h.read8 c.bus addr
  simp only [read, seen_tick h]
  simp only [seen, hr]

theorem seen_write (c : Core γ) (addr : UInt16) (v : UInt8) :
    (c.write addr v).seen f = (c.seen f).write addr v := by
  have hw := h.write8 c.bus addr v
  simp only [write, seen_tick h]
  simp only [seen, hw, Logged.value_map, Logged.events_map]

theorem seen_fetch8 (c : Core γ) : (c.seen f).fetch8 = (c.fetch8.1, c.fetch8.2.seen f) := by
  simp only [fetch8, seen_registers, seen_read h, seen_setPC]

theorem seen_fetch16 (c : Core γ) : (c.seen f).fetch16 = (c.fetch16.1, c.fetch16.2.seen f) := by
  simp only [fetch16, seen_fetch8 h]

theorem seen_load (c : Core γ) (o : Operand) :
    (c.seen f).load o = ((c.load o).1, (c.load o).2.seen f) := by
  cases o with
  | reg r => rfl
  | atHL => exact seen_read h c c.registers.hl

theorem seen_store (c : Core γ) (o : Operand) (v : UInt8) :
    (c.store o v).seen f = (c.seen f).store o v := by
  cases o with
  | reg r => rfl
  | atHL => exact seen_write h c c.registers.hl v

theorem seen_update (c : Core γ) (o : Operand) (g : UInt8 → Flags → UInt8 × Flags) :
    (c.update o g).seen f = (c.seen f).update o g := by
  simp only [update, seen_load h, seen_registers]
  exact seen_store h _ o _

theorem seen_pushByte (c : Core γ) (v : UInt8) : (c.pushByte v).seen f = (c.seen f).pushByte v :=
  seen_write h (c.setSP (c.registers.sp - 1)) (c.registers.sp - 1) v

theorem seen_popByte (c : Core γ) : (c.seen f).popByte = (c.popByte.1, c.popByte.2.seen f) := by
  simp only [popByte, seen_read h, seen_registers]
  rfl

theorem seen_push (c : Core γ) (w : UInt16) : (c.push w).seen f = (c.seen f).push w := by
  simp only [push, seen_pushByte h]

theorem seen_pop (c : Core γ) : (c.seen f).pop = (c.pop.1, c.pop.2.seen f) := by
  simp only [pop, seen_popByte h]

theorem seen_returnFrom (c : Core γ) : c.returnFrom.seen f = (c.seen f).returnFrom := by
  simp only [returnFrom, seen_tick h, seen_setPC, seen_pop h]

theorem seen_executeBit (c : Core γ) (b : BitInstruction) :
    (c.executeBit b).seen f = (c.seen f).executeBit b := by
  cases b with
  | shift op dst => exact seen_update h c dst (Alu.shift op)
  | bit k src =>
    simp only [executeBit, seen_load h, seen_registers]
    rfl
  | res k dst | set k dst => simp only [executeBit, seen_load h, seen_store h]

theorem seen_halt (c : Core γ) : c.halt.seen f = (c.seen f).halt := by
  have hi : Bus.interrupts (c.seen f).bus = Bus.interrupts c.bus := h.interrupts c.bus
  unfold halt
  simp only [apply_ite (seen f), hi]
  rfl

theorem seen_stop (c : Core γ) : c.stop.seen f = (c.seen f).stop := by
  have hs := h.switchSpeed c.bus
  unfold stop
  simp only [apply_ite (seen f)]
  simp only [seen, setPC, modify, setActivity, registers, hs, h.clearDivider, h.buttonHeld,
    Logged.value_map, Logged.events_map]
  rfl

/-- **An instruction does the same on both buses.** -/
theorem seen_execute (c : Core γ) (i : Instruction) :
    (c.execute i).seen f = (c.seen f).execute i := by
  cases i with
  | stop => exact seen_stop h c
  | halt => exact seen_halt h c
  | inc dst => exact seen_update h c dst Alu.inc
  | dec dst => exact seen_update h c dst Alu.dec
  | jr cond =>
    simp only [execute_jr, apply_ite (seen f), seen_fetch8 h, seen_setPC, seen_tick h,
      seen_registers]
  | jp cond =>
    simp only [execute_jp, apply_ite (seen f), seen_fetch16 h, seen_setPC, seen_tick h,
      seen_registers]
  | call cond =>
    simp only [execute_call, apply_ite (seen f), seen_fetch16 h, seen_setPC, seen_push h,
      seen_tick h, seen_registers]
  | ret cond =>
    cases cond with
    | none => exact seen_returnFrom h c
    | some k =>
      simp only [execute_ret, apply_ite (seen f), seen_returnFrom h, seen_tick h, seen_registers]
      rfl
  | bitPage =>
    simp only [execute, seen_fetch8 h]
    exact seen_executeBit h c.fetch8.2 (decodeBit c.fetch8.1).op
  | nop | di | ei | rotateA r | daa | cpl | scf | ccf | jpHL | undefined => rfl
  | reti => simp only [execute, seen_setIME, seen_returnFrom h]
  | _ =>
    -- registers are set in the same way on both buses
    simp only [execute, seen_load h, seen_store h, seen_fetch8 h, seen_fetch16 h, seen_read h,
      seen_write h, seen_tick h, seen_push h, seen_pop h, seen_pointer, seen_setPC,
      seen_registers] <;> rfl

theorem seen_fetchOpcode (c : Core γ) :
    (c.seen f).fetchOpcode = (c.fetchOpcode.1, c.fetchOpcode.2.seen f) := by
  unfold fetchOpcode
  rw [seen_cpu]
  split
  · exact seen_read h { c with cpu.haltBug := false } c.registers.pc
  · exact seen_fetch8 h c

theorem seen_decoded (c : Core γ) : (c.seen f).decoded = c.decoded := by
  rw [decoded, decoded, seen_fetchOpcode h]

theorem seen_fetched (c : Core γ) : (c.seen f).fetched = c.fetched.seen f := by
  rw [fetched, fetched, seen_fetchOpcode h, seen_decoded h]
  rfl

theorem seen_runInstruction (c : Core γ) :
    c.runInstruction.seen f = (c.seen f).runInstruction := by
  have he : (c.seen f).fetched.execute (c.seen f).decoded =
      (c.fetched.execute c.decoded).seen f := by
    rw [seen_execute h, seen_decoded h, seen_fetched h]
  rw [runInstruction_eq, runInstruction_eq, he, seen_fetchOpcode h, seen_cpu,
    apply_ite (seen f)]
  rfl

theorem seen_act (c : Core γ) : c.act.seen f = (c.seen f).act := by
  have hb : Bus.buttonHeld (c.seen f).bus = Bus.buttonHeld c.bus := h.buttonHeld c.bus
  unfold act
  rw [seen_cpu]
  cases c.cpu.activity with
  | running => exact seen_runInstruction h c
  | halted | locked => exact seen_tick h c
  | stopped =>
    simp only [apply_ite (seen f), hb, seen_runInstruction h]
    rfl

theorem seen_acknowledge (c : Core γ) :
    (c.seen f).acknowledge = (c.acknowledge.1, c.acknowledge.2.seen f) := by
  have hi : Bus.interrupts (c.seen f).bus = Bus.interrupts c.bus := h.interrupts c.bus
  unfold acknowledge
  simp only [hi]
  split
  · simp only [seen, h.setInterrupts]
  · rfl

theorem seen_dispatch (c : Core γ) : c.dispatch.seen f = (c.seen f).dispatch := by
  -- up to the acknowledgement, whose answer the second half depends on
  have hp : (((c.seen f).setIME false).tick.tick).pushByte (highByte (c.seen f).registers.pc) =
      ((c.setIME false).tick.tick.pushByte (highByte c.registers.pc)).seen f := by
    rw [seen_pushByte h, seen_tick h, seen_tick h, seen_setIME, seen_registers]
  unfold dispatch
  simp only
  rw [hp, seen_acknowledge h, seen_tick h, seen_setPC, seen_pushByte h, seen_registers]

theorem seen_service (c : Core γ) : c.service.seen f = (c.seen f).service := by
  have hi : Bus.interrupts (c.seen f).bus = Bus.interrupts c.bus := h.interrupts c.bus
  unfold service
  rw [seen_cpu, hi]
  cases c.cpu.activity with
  | stopped | locked => rfl
  | running | halted =>
    simp only [apply_ite (seen f), seen_dispatch h]
    rfl

/-- **The CPU cannot tell the buses apart.** -/
theorem seen_step (c : Core γ) : c.step.seen f = (c.seen f).step := by
  rw [step, step, seen_service h, seen_act h]

end Core

end Handheld
