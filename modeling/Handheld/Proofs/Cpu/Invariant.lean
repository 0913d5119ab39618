import Handheld.Proofs.Cpu.Work
import Mathlib.Tactic.Set

/-!
# What a step keeps

A CPU reaches its bus in a handful of ways only. A property of CPU and bus that each of them keeps
is kept by every step.

* `Core.Kept`: the ways, one by one; `Core.KeptByInstructions`: those of an instruction.
* `Core.KeptByCycles`: the same, where a property need only hold again when the bus cycle that an
  access ends with is over.
* `act_keeps`: the first half of a step keeps what the bus cycles of an instruction keep.
* `step_keeps`: a step keeps such a property, unless the CPU waits for a button.
* `le_step_dots`: a step takes a bus cycle or more.
* `step_locked`, `step_stopped`: a CPU that hangs lets time pass; one that waits for a button leaves
  the bus alone.
-/

namespace Handheld.Core

variable {β : Type} [Bus β] {c : Core β} {P : Core β → Prop}

/-- **A property that every access of the CPU keeps**, whatever the CPU does besides. -/
structure Kept (P : Core β → Prop) : Prop where
  withCpu {c : Core β} (h : P c) (cpu : Cpu) : P { c with cpu }
  instruction {c : Core β} (h : P c) (pc : UInt16) (byte : UInt8) (op : Instruction)
    (r : Registers) : P (c.report (.instruction pc byte op r))
  locked {c : Core β} (h : P c) (byte : UInt8) (pc : UInt16) : P (c.report (.cpuLocked byte pc))
  tick {c : Core β} (h : P c) : P c.tick
  read {c : Core β} (h : P c) (addr : UInt16) : P { c with bus := (Bus.read8 c.bus addr).2 }
  write {c : Core β} (h : P c) (addr : UInt16) (v : UInt8) :
    P { c with
      bus := (Bus.write8 c.bus addr v).value,
      events := Logged.join c.events (Bus.write8 c.bus addr v).events }
  clear {c : Core β} (h : P c) (s : Source) :
    P { c with bus := Bus.setInterrupts c.bus ((Bus.interrupts c.bus).clear s) }
  switchSpeed {c : Core β} (h : P c) :
    P { c with
      bus := (Bus.switchSpeed c.bus).value.2,
      events := Logged.join c.events (Bus.switchSpeed c.bus).events }
  clearDivider {c : Core β} (h : P c) : P { c with bus := Bus.clearDivider c.bus }

/-- **A property that every access of an instruction keeps.** Only the entry into a handler
acknowledges an interrupt. -/
structure KeptByInstructions (P : Core β → Prop) : Prop where
  withCpu {c : Core β} (h : P c) (cpu : Cpu) : P { c with cpu }
  instruction {c : Core β} (h : P c) (pc : UInt16) (byte : UInt8) (op : Instruction)
    (r : Registers) : P (c.report (.instruction pc byte op r))
  locked {c : Core β} (h : P c) (byte : UInt8) (pc : UInt16) : P (c.report (.cpuLocked byte pc))
  tick {c : Core β} (h : P c) : P c.tick
  read {c : Core β} (h : P c) (addr : UInt16) : P { c with bus := (Bus.read8 c.bus addr).2 }
  write {c : Core β} (h : P c) (addr : UInt16) (v : UInt8) :
    P { c with
      bus := (Bus.write8 c.bus addr v).value,
      events := Logged.join c.events (Bus.write8 c.bus addr v).events }
  switchSpeed {c : Core β} (h : P c) :
    P { c with
      bus := (Bus.switchSpeed c.bus).value.2,
      events := Logged.join c.events (Bus.switchSpeed c.bus).events }
  clearDivider {c : Core β} (h : P c) : P { c with bus := Bus.clearDivider c.bus }

theorem Kept.byInstructions (hP : Kept P) : KeptByInstructions P where
  withCpu := hP.withCpu
  instruction := hP.instruction
  locked := hP.locked
  tick := hP.tick
  read := hP.read
  write := hP.write
  switchSpeed := hP.switchSpeed
  clearDivider := hP.clearDivider

/-- **A property that every bus cycle of an instruction keeps**: reads and writes may break it, as long
as the tick that follows them at once restores it. -/
structure KeptByCycles (P : Core β → Prop) : Prop where
  withCpu {c : Core β} (h : P c) (cpu : Cpu) : P { c with cpu }
  instruction {c : Core β} (h : P c) (pc : UInt16) (byte : UInt8) (op : Instruction)
    (r : Registers) : P (c.report (.instruction pc byte op r))
  locked {c : Core β} (h : P c) (byte : UInt8) (pc : UInt16) : P (c.report (.cpuLocked byte pc))
  tick {c : Core β} (h : P c) : P c.tick
  read {c : Core β} (h : P c) (addr : UInt16) : P (c.read addr).2
  write {c : Core β} (h : P c) (addr : UInt16) (v : UInt8) : P (c.write addr v)
  switchSpeed {c : Core β} (h : P c) :
    P { c with
      bus := (Bus.switchSpeed c.bus).value.2,
      events := Logged.join c.events (Bus.switchSpeed c.bus).events }
  clearDivider {c : Core β} (h : P c) : P { c with bus := Bus.clearDivider c.bus }

theorem KeptByInstructions.byCycles (hP : KeptByInstructions P) : KeptByCycles P where
  withCpu := hP.withCpu
  instruction := hP.instruction
  locked := hP.locked
  tick := hP.tick
  read h addr := hP.tick (hP.read h addr)
  write h addr v := hP.tick (hP.write h addr v)
  switchSpeed := hP.switchSpeed
  clearDivider := hP.clearDivider

theorem Kept.byCycles (hP : Kept P) : KeptByCycles P := hP.byInstructions.byCycles

theorem Work.keeps (hP : KeptByCycles P) {n : Nat} {d : Core β} (hw : Work n c d) (h : P c) :
    P d := by
  induction hw with
  | start _ => exact h
  | modify _ f ih => exact hP.withCpu (ih h) _
  | tick _ ih => exact hP.tick (ih h)
  | read _ addr ih => exact hP.read (ih h) addr
  | write _ addr v ih => exact hP.write (ih h) addr v

theorem stop_keeps (hP : KeptByCycles P) (h : P c) : P c.stop := by
  have hs := hP.switchSpeed (hP.withCpu h (c.setPC (c.registers.pc + 1)).cpu)
  unfold stop
  simp only
  split
  · exact hs
  · split
    · exact hP.clearDivider hs
    · exact hP.withCpu (hP.clearDivider hs) _

theorem execute_keeps (hP : KeptByCycles P) (h : P c) (i : Instruction) : P (c.execute i) := by
  cases i using Instruction.byMode with
  | plain i hi =>
    obtain ⟨n, hw⟩ := plain_work c hi
    exact hw.keeps hP h
  | stop => exact stop_keeps hP h
  | halt =>
    simp only [execute, halt]
    split <;> exact hP.withCpu h _
  | di | ei | undefined => exact hP.withCpu h _
  | reti => exact hP.withCpu ((Work.start c).returnFrom.keeps hP h) _

theorem runInstruction_keeps (hP : KeptByCycles P) (h : P c) : P c.runInstruction := by
  have hf : P c.fetched :=
    hP.instruction ((fetchOpcode_work c).keeps hP (hP.withCpu h _)) _ _ _ _
  have hx := execute_keeps hP hf c.decoded
  rw [runInstruction_eq]
  split
  · exact hP.locked hx _ _
  · exact hP.withCpu hx _

/-- A CPU waits in vain for a button, or its step makes an access. -/
theorem waits_or_acts (c : Core β) :
    (c.cpu.activity = .stopped ∧ Bus.buttonHeld c.bus = false) ∨
      (c.cpu.activity = .stopped → Bus.buttonHeld c.bus = true) := by
  cases Bus.buttonHeld c.bus with
  | true => exact .inr fun _ => rfl
  | false =>
    by_cases ha : c.cpu.activity = .stopped
    · exact .inl ⟨ha, rfl⟩
    · exact .inr fun hs => absurd hs ha

/-- **The first half of a step keeps what the bus cycles of an instruction keep.** A CPU that waits in
vain for a button is left out: it counts dots without an access. -/
theorem act_keeps (hP : KeptByCycles P) (h : P c)
    (hb : c.cpu.activity = .stopped → Bus.buttonHeld c.bus = true) : P c.act := by
  by_cases hr : c.ready
  · rw [act_of_ready hr]
    exact runInstruction_keeps hP (hP.withCpu h _)
  · rcases act_of_not_ready hr with ⟨-, ht⟩ | ⟨hs, -⟩
    · rw [ht]
      exact hP.tick h
    · simp [ready, hs, hb hs] at hr

section Steps

variable (hP : KeptByCycles P)
  (hclear : ∀ {c : Core β}, P c → ∀ s : Source,
    P { c with bus := Bus.setInterrupts c.bus ((Bus.interrupts c.bus).clear s) })

include hP hclear

theorem dispatch_keeps (h : P c) : P c.dispatch := by
  obtain ⟨d, hd, hc⟩ := dispatch_work c
  have hack : P d.acknowledge.2 := by
    have hp := hd.keeps hP (hP.withCpu h _)
    unfold acknowledge
    simp only
    split
    · exact hclear hp _
    · exact hp
  exact hc.keeps hP hack

theorem service_keeps (h : P c) : P c.service := by
  by_cases hint : c.interrupted
  · rw [service_of_interrupted hint]
    exact dispatch_keeps hP hclear (hP.withCpu h _)
  · rcases service_of_not_interrupted hint with hs | ⟨hs, -⟩
    · rwa [hs]
    · rw [hs]
      exact hP.withCpu h _

/-- **A step keeps what its bus cycles and acknowledgements keep**, unless the CPU waits in vain for a
button. -/
theorem step_keeps_of_cycles (h : P c)
    (hb : c.cpu.activity = .stopped → Bus.buttonHeld c.bus = true) : P c.step :=
  service_keeps hP hclear (act_keeps hP h hb)

end Steps

/-- **A step keeps what every access keeps**, unless the CPU waits in vain for a button. -/
theorem step_keeps (hP : Kept P) (h : P c)
    (hb : c.cpu.activity = .stopped → Bus.buttonHeld c.bus = true) : P c.step :=
  step_keeps_of_cycles hP.byCycles hP.clear h hb

/-- Dots are only added. -/
theorem dots_kept (n : Nat) : Kept fun c : Core β => n ≤ c.dots where
  withCpu h _ := h
  instruction h _ _ _ _ := h
  locked h _ _ := h
  tick h := Nat.le_add_right_of_le h
  read h _ := h
  write h _ _ := h
  clear h _ := h
  switchSpeed h := h
  clearDivider h := h

/-- **A step takes a bus cycle or more.** -/
theorem le_step_dots {least : Nat} (hbus : ∀ b : β, least ≤ (Bus.tick b).value.1)
    (hidle : least ≤ idleDots) (c : Core β) : least ≤ c.step.dots := by
  have htick (d : Core β) : least ≤ d.tick.dots := Nat.le_add_left_of_le (hbus d.bus)
  have hinstruction (d : Core β) : least ≤ d.runInstruction.dots := by
    have hfetch : least ≤ d.fetchOpcode.2.dots := by
      unfold fetchOpcode
      split
      · exact htick _
      · exact htick { d with bus := (Bus.read8 d.bus d.registers.pc).2 }
    have hx := execute_keeps (dots_kept least).byCycles (c := d.fetched) hfetch d.decoded
    rw [runInstruction_eq]
    split <;> exact hx
  have hact : least ≤ c.act.dots := by
    by_cases hr : c.ready
    · rw [act_of_ready hr]
      exact hinstruction _
    · rcases act_of_not_ready hr with ⟨-, ht⟩ | ⟨-, ht⟩ <;> rw [ht]
      · exact htick c
      · exact Nat.le_add_left_of_le hidle
  exact service_keeps (dots_kept least).byCycles (dots_kept least).clear hact

/-- A CPU that hangs only lets time pass. -/
theorem step_locked (ha : c.cpu.activity = .locked) : c.step = c.tick := by
  have hact : c.act = c.tick := by
    unfold act
    rw [ha]
  have hstill : c.tick.cpu.activity = .locked := ha
  rw [step, hact]
  simp only [service, hstill]

/-- A CPU that waits in vain for a button does nothing but count dots. -/
theorem step_stopped (ha : c.cpu.activity = .stopped) (hb : Bus.buttonHeld c.bus = false) :
    c.step = { c with dots := c.dots + idleDots } := by
  have hact : c.act = { c with dots := c.dots + idleDots } := by
    simp only [act, ha, hb, Bool.false_eq_true, if_false]
  rw [step, hact]
  simp only [service, ha]

/-- STOP waits only if no button is held. -/
theorem stop_waits (hr : c.cpu.activity = .running) (h : c.stop.cpu.activity = .stopped) :
    Bus.buttonHeld c.stop.bus = false := by
  unfold stop at h ⊢
  simp only at h ⊢
  split
  · rename_i hs
    rw [if_pos hs] at h
    exact absurd (hr.symm.trans h) (by decide)
  · rename_i hs
    rw [if_neg hs] at h
    split
    · rename_i hb
      rw [if_pos hb] at h
      exact absurd (hr.symm.trans h) (by decide)
    · rename_i hb
      exact Bool.not_eq_true _ ▸ hb

/-- **A step that ends with the CPU waiting for a button leaves no button held.** -/
theorem step_waits (h : c.step.cpu.activity = .stopped) : Bus.buttonHeld c.step.bus = false := by
  have hserve : c.step = c.act := by
    by_cases hint : c.act.interrupted
    · obtain ⟨r, hc⟩ := dispatch_cpu (c.act.setActivity .running)
      rw [step, service_of_interrupted hint, hc] at h
      cases h
    · rcases service_of_not_interrupted hint with hs | ⟨hs, -⟩
      · exact hs
      · rw [step, hs] at h
        cases h
  rw [hserve] at h ⊢
  by_cases hr : c.ready
  · -- an instruction was executed, and it can only have been STOP
    rw [act_of_ready hr, runInstruction_eq] at h ⊢
    set d := c.setActivity .running
    by_cases hl : (d.fetched.execute d.decoded).cpu.activity = .locked
    · rw [if_pos hl] at h
      exact absurd (hl.symm.trans h) (by decide)
    · rw [if_neg hl] at h ⊢
      have hstop := (fetched_activity (c := d) rfl).stopped_iff h
      rw [hstop] at h ⊢
      refine stop_waits ?_ h
      obtain ⟨r, hf⟩ := fetched_cpu d
      rw [hf]
      rfl
  · rcases act_of_not_ready hr with ⟨hn, ht⟩ | ⟨ha, ht⟩
    · rw [ht] at h
      exact absurd h hn
    · rw [ht]
      simpa [ready, ha] using hr

end Handheld.Core
