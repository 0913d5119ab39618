import Handheld.Proofs.Cpu.Masking

/-!
# The control state of the CPU

Besides its registers the CPU keeps the interrupt master enable, the delay of EI, what it is doing and
whether a HALT has failed. Every instruction and the interrupt check touch some of these and leave the
others as they were; the rules that connect them hold all the same.

* `execute_armed`: only a HALT that could neither wait nor be interrupted fails.
* `step_armed`: the step of a failed HALT enters no handler, and what the next one reads again is the
  opcode after the HALT.
* `service_rests`: a CPU that waits for an interrupt, or runs and accepts them, has left none pending.
* `control_state`: all of this for every reachable CPU.
-/

namespace Handheld

/-- `Flags` has no place for the low half of `F`: it is zero in every state, and a byte that is written
to `F` loses it (`Flags.toByte_ofByte`). -/
theorem Registers.af_low (r : Registers) : r.af &&& 0x000F = 0 := by
  have hflags : r.flags.toByte.toNat % 16 = 0 := by
    rcases r.flags with ⟨_ | _, _ | _, _ | _, _ | _⟩ <;> rfl
  have hones : (0x000F : UInt16).toNat = 2 ^ 4 - 1 := rfl
  rw [← UInt16.toNat_inj, UInt16.toNat_and, hones, Nat.and_two_pow_sub_one_eq_mod, af, toNat_word]
  simp only [UInt16.reduceToNat]
  omega

namespace Core

variable {β : Type} [Bus β] {c : Core β}

/-- A HALT fails only if no interrupt can be taken, neither now nor after an EI. -/
theorem halt_armed (hb : c.cpu.haltBug = false) (h : c.halt.cpu.haltBug = true) :
    c.halt.cpu = { c.cpu with haltBug := true } ∧ c.cpu.ime = false ∧ c.cpu.eiDelay = 0 := by
  unfold halt at h ⊢
  simp only at h ⊢
  split
  · rename_i hw
    rw [if_pos hw] at h
    exact absurd (hb.symm.trans h) (by decide)
  · rename_i hw
    simp only [Bool.or_eq_true, decide_eq_true_eq, not_or, Bool.not_eq_true] at hw
    obtain ⟨⟨hime, -⟩, hdelay⟩ := hw
    exact ⟨rfl, hime, by omega⟩

/-- **Only HALT can fail**: no other instruction makes the next opcode be read twice. -/
theorem execute_armed {i : Instruction} (hb : c.cpu.haltBug = false)
    (h : (c.execute i).cpu.haltBug = true) :
    i = .halt ∧ (c.execute i).cpu = { c.cpu with haltBug := true } ∧ c.cpu.ime = false ∧
      c.cpu.eiDelay = 0 := by
  have hnot : ¬c.cpu.haltBug = true := by simp [hb]
  cases i using Instruction.byMode with
  | plain i hi =>
    obtain ⟨n, hw⟩ := plain_work c hi
    obtain ⟨r, hr⟩ := hw.cpu
    rw [hr] at h
    exact absurd h hnot
  | stop =>
    obtain ⟨a, -, hc⟩ := stop_cpu c
    rw [execute, hc] at h
    exact absurd h hnot
  | halt => exact ⟨rfl, halt_armed hb h⟩
  | reti =>
    obtain ⟨r, hr⟩ := (Work.start c).returnFrom.cpu
    simp only [execute, setIME, hr] at h
    exact absurd h hnot
  | di | ei | undefined => exact absurd h hnot

/-- The CPU after an instruction that was a failed HALT. -/
theorem runInstruction_armed (hr : c.cpu.activity = .running)
    (h : c.runInstruction.cpu.haltBug = true) :
    c.decoded = .halt ∧ c.cpu.ime = false ∧ c.cpu.eiDelay = 0 ∧
      c.runInstruction.cpu =
        { c.cpu with registers := c.fetched.registers, haltBug := true } := by
  obtain ⟨r, hf⟩ := fetched_cpu c
  have hexec : (c.fetched.execute c.decoded).cpu.haltBug = true := by
    rw [runInstruction_eq] at h
    split at h <;> exact h
  obtain ⟨hi, hc, hime, hdelay⟩ := execute_armed (by rw [hf]) hexec
  have hoff : c.cpu.ime = false := by simpa [hf] using hime
  have hzero : c.cpu.eiDelay = 0 := by simpa [hf] using hdelay
  have hgoes : (c.fetched.execute c.decoded).cpu.activity ≠ .locked := by
    rw [hc, hf, hr]
    decide
  refine ⟨hi, hoff, hzero, ?_⟩
  rw [runInstruction_eq, if_neg hgoes]
  simp [settleIME, hc, hf, hoff, hzero, registers]

/-- What the interrupt check does if it enters no handler. -/
theorem service_calm (h : ¬c.interrupted) :
    c.service = c ∧ (c.cpu.activity = .stopped ∨ c.cpu.activity = .locked ∨
        (Bus.interrupts c.bus).pending = 0) ∨
      c.service = c.setActivity .running ∧ c.cpu.ime = false := by
  unfold service
  cases ha : c.cpu.activity with
  | stopped => exact .inl ⟨rfl, .inl rfl⟩
  | locked => exact .inl ⟨rfl, .inr (.inl rfl)⟩
  | running | halted =>
    by_cases hp : (Bus.interrupts c.bus).pending = 0
    · simp [hp]
    · have hime : c.cpu.ime = false := by simpa [interrupted, ha, hp] using h
      simp [hp, hime, setActivity]

/-- **Nothing is left pending**: after the interrupt check a CPU that still waits for an interrupt has
found none, and so has one that runs and accepts interrupts. -/
theorem service_rests (h : c.service.cpu.activity = .halted ∨
    c.service.cpu.activity = .running ∧ c.service.cpu.ime = true) :
    (Bus.interrupts c.service.bus).pending = 0 := by
  by_cases hint : c.interrupted
  · -- a handler starts running, with interrupts disabled
    obtain ⟨r, hr⟩ := dispatch_cpu (c.setActivity .running)
    rw [service_of_interrupted hint, hr] at h
    simp [setActivity] at h
  · rcases service_calm hint with ⟨hs, hnone⟩ | ⟨hs, hime⟩
    · rw [hs] at h ⊢
      rcases hnone with ha | ha | hp
      · simp [ha] at h
      · simp [ha] at h
      · exact hp
    · rw [hs] at h
      simp [setActivity, hime] at h

end Core

namespace Cpu

variable {β : Type} [Bus β] {cpu : Cpu} {bus : β}

/-- **A failed HALT leaves the CPU undisturbed**: it runs, and takes no interrupt before the opcode
that it reads again. -/
structure Undisturbed (cpu : Cpu) : Prop where
  running : cpu.activity = .running
  masked : cpu.ime = false
  settled : cpu.eiDelay = 0

/-- **A step that ends with a failed HALT** has executed HALT and nothing else: the program counter
stands behind it, and no handler was entered. -/
theorem step_armed (hold : cpu.haltBug = true → Undisturbed cpu)
    (h : (cpu.step bus).cpu.haltBug = true) :
    Undisturbed (cpu.step bus).cpu ∧ cpu.instruction? bus = some .halt ∧
      cpu.entersHandler bus = false ∧
      (cpu.step bus).cpu.registers.pc =
        if cpu.haltBug then cpu.registers.pc else cpu.registers.pc + 1 := by
  set c : Core β := { cpu, bus }
  have hact : c.act.cpu.haltBug = true := by
    obtain ⟨r, a, -, hs⟩ := Core.service_cpu c.act
    have hstep : (cpu.step bus).cpu = _ := hs
    rwa [hstep] at h
  have hready : c.ready := by
    by_contra hn
    -- an idle step would have found the CPU running already
    rw [Core.act_idle_cpu hn] at hact
    have hrun : c.cpu.activity = .running := (hold hact).running
    simp [Core.ready, hrun] at hn
  rw [Core.act_of_ready hready] at hact
  obtain ⟨hi, hime, hdelay, hc⟩ := Core.runInstruction_armed (c := c.setActivity .running) rfl hact
  rw [← Core.act_of_ready hready] at hc
  have hcalm : ¬c.act.interrupted := by
    rw [Core.interrupted, hc, hime, Bool.and_false]
    decide
  have hstep : (cpu.step bus).cpu = c.act.cpu := by
    have hs : cpu.step bus = c.act.service := rfl
    rw [hs]
    rcases Core.service_calm hcalm with ⟨hsame, -⟩ | ⟨hwake, -⟩
    · rw [hsame]
    · have hrun : c.act.cpu.activity = .running := by rw [hc]; rfl
      rw [hwake, Core.setActivity, ← hrun]
  rw [hstep, hc, Core.fetched_registers]
  refine ⟨⟨rfl, hime, hdelay⟩, ?_, by simpa [entersHandler] using hcalm, rfl⟩
  rw [Core.decoded_setActivity] at hi
  show c.instruction? = some .halt
  rw [Core.instruction?, if_pos hready, hi]

/-- **Between two steps a failed HALT leaves the CPU undisturbed.** -/
theorem reachable_undisturbed (h : Reachable β cpu) (hb : cpu.haltBug = true) : Undisturbed cpu := by
  induction h with
  | powerOn => cases hb
  | afterBoot => cases hb
  | step _ bus ih => exact (step_armed ih hb).1

/-- **The control state of a CPU**, on any buses. The low half of `F` is zero; this much the type of the
flags ensures, the rest comes from the steps. Between two of them no more than one instruction is left
until an EI takes effect. While a HALT has failed the CPU runs with interrupts disabled and no EI to
come, and what it reads twice is the opcode after the HALT, never one of a handler. A step that leaves
the CPU waiting for an interrupt, or running with interrupts enabled, leaves no enabled source
pending. -/
theorem control_state (h : Reachable β cpu) :
    cpu.registers.af &&& 0x000F = 0 ∧ cpu.eiDelay ≤ 1 ∧
      (cpu.haltBug = true → cpu.activity = .running ∧ cpu.ime = false ∧ cpu.eiDelay = 0) ∧
      ∀ bus : β,
        ((cpu.step bus).cpu.haltBug = true →
          cpu.instruction? bus = some .halt ∧ cpu.entersHandler bus = false ∧
            (cpu.step bus).cpu.registers.pc =
              if cpu.haltBug then cpu.registers.pc else cpu.registers.pc + 1) ∧
        ((cpu.step bus).cpu.activity = .halted →
          (Bus.interrupts (cpu.step bus).bus).pending = 0) ∧
        ((cpu.step bus).cpu.activity = .running → (cpu.step bus).cpu.ime = true →
          (Bus.interrupts (cpu.step bus).bus).pending = 0) := by
  have hundisturbed := reachable_undisturbed h
  refine ⟨cpu.registers.af_low, (reachable_settled h).delay_le, ?_, ?_⟩
  · intro hb
    have hcalm := hundisturbed hb
    exact ⟨hcalm.running, hcalm.masked, hcalm.settled⟩
  · intro bus
    refine ⟨fun hb => (step_armed hundisturbed hb).2, ?_, ?_⟩
    · intro ha
      exact Core.service_rests (.inl ha)
    · intro ha hime
      exact Core.service_rests (.inr ⟨ha, hime⟩)

/-- A HALT that finds a request with interrupts disabled fails: the CPU runs on, masked, and the next
opcode is the one after the HALT. -/
theorem control_state_failed :
    Reachable FlatBus (firstOfTwo 0x76 0x3C).cpu ∧ (firstOfTwo 0x76 0x3C).cpu.haltBug = true ∧
      (firstOfTwo 0x76 0x3C).cpu.activity = .running ∧ (firstOfTwo 0x76 0x3C).cpu.ime = false ∧
      (firstOfTwo 0x76 0x3C).cpu.registers.pc = 0x0101 := by
  have hreach : Reachable FlatBus (firstOfTwo 0x76 0x3C).cpu := reachable_firstOfTwo 0x76 0x3C
  have hfailed : (firstOfTwo 0x76 0x3C).cpu.haltBug = true := by decide +kernel
  obtain ⟨hrun, hime, -⟩ := (control_state hreach).2.2.1 hfailed
  have hpc := ((control_state (.afterBoot .mono true)).2.2.2 (twoInstructions 0x76 0x3C)).1 hfailed
  exact ⟨hreach, hfailed, hrun, hime, hpc.2.2⟩

end Cpu

end Handheld
