import Handheld.Proofs.Cpu.Masking

/-!
# When EI and DI take effect

An EI takes effect one instruction late, a DI at once. The delay of EI is a counter: an instruction
looks at it before it is executed, EI and DI set it, and it is counted down when the instruction is
over. So it takes sequences of instructions to say what the interrupt check of a step finds.

* `atCheck`: the CPU and its bus when a step looks for interrupts; `entersHandler_iff`.
* `StartsDelay`: an EI that finds interrupts disabled and no other EI on its way.
* `EndsDelay`: what the next instruction does; `StartsDelay.endsDelay`.
* `after_enables`: along a run of EIs each but the first has taken effect.
* `masked_after_disable`: after a DI interrupts stay disabled until they are asked for.
* `enable_disable_timing` (every reachable CPU, on any buses): all of this together.
-/

namespace Handheld.Cpu

open Handheld.Core (act_mask)

variable {β : Type} [Bus β] {cpu : Cpu} {bus : β}

/-- The CPU and its bus at the interrupt check of a step. -/
def atCheck (cpu : Cpu) (bus : β) : Core β := Core.act { cpu, bus }

/-- True if the interrupt check of a step finds a source that is requested and enabled. -/
def pendingAtCheck (cpu : Cpu) (bus : β) : Bool :=
  (Bus.interrupts (cpu.atCheck bus).bus).pending != 0

/-- **A step enters a handler** if its check finds a source, the master enable and a CPU that runs or
waits for an interrupt. -/
theorem entersHandler_iff (cpu : Cpu) (bus : β) :
    cpu.entersHandler bus = true ↔
      ((cpu.atCheck bus).cpu.activity = .running ∨ (cpu.atCheck bus).cpu.activity = .halted) ∧
        cpu.pendingAtCheck bus = true ∧ (cpu.atCheck bus).cpu.ime = true := by
  show (cpu.atCheck bus).interrupted = true ↔ _
  rw [Core.interrupted, Bool.and_eq_true_iff, Bool.and_eq_true_iff, Bool.or_eq_true_iff, beq_iff_eq,
    beq_iff_eq, and_assoc]
  rfl

/-- What a step that enters a handler ends with. -/
theorem step_eq_dispatch (h : cpu.entersHandler bus = true) :
    cpu.step bus = ((cpu.atCheck bus).setActivity .running).dispatch :=
  Core.service_of_interrupted h

/-- The check leaves a CPU running that it finds running. -/
theorem step_running (h : (cpu.atCheck bus).cpu.activity = .running) :
    (cpu.step bus).cpu.activity = .running := by
  obtain ⟨r, a, ha, hc⟩ := Core.service_cpu (cpu.atCheck bus)
  have hstep : (cpu.step bus).cpu = _ := hc
  rw [hstep]
  rcases ha with rfl | ⟨rfl, -⟩
  · exact h
  · rfl

/-- **An EI that starts the delay**: it finds interrupts disabled, and no earlier EI is still to take
effect. -/
structure StartsDelay (cpu : Cpu) (bus : β) : Prop where
  masked : cpu.ime = false
  settled : cpu.eiDelay = 0
  executes : cpu.instruction? bus = some .ei

/-- **The instruction after such an EI**. Unless it is DI, or hangs the CPU, the check of its own step
finds the master enable set: a source that is pending is serviced there and then, whatever the
instruction was, if it was not a STOP that stopped the CPU. A DI comes before the EI takes effect. -/
structure EndsDelay (cpu : Cpu) (bus : β) (i : Instruction) : Prop where
  executes : cpu.instruction? bus = some i
  enabled : i ≠ .di → i ≠ .undefined → (cpu.atCheck bus).cpu.ime = true
  stopped : (cpu.atCheck bus).cpu.activity = .stopped → i = .stop
  enters : i ≠ .di → i ≠ .undefined →
    (cpu.entersHandler bus = true ↔
      cpu.pendingAtCheck bus = true ∧ (cpu.atCheck bus).cpu.activity ≠ .stopped)
  dispatches : cpu.entersHandler bus = true →
    cpu.step bus = ((cpu.atCheck bus).setActivity .running).dispatch
  cancelled : i = .di →
    (cpu.atCheck bus).cpu.ime = false ∧ cpu.entersHandler bus = false ∧
      (cpu.step bus).cpu.ime = false

/-- **The EI itself enables nothing**: no handler is entered, whatever is pending, and the delay is
one. -/
theorem StartsDelay.leaves (h : StartsDelay cpu bus) :
    cpu.entersHandler bus = false ∧ (cpu.step bus).cpu.ime = false ∧
      (cpu.step bus).cpu.eiDelay = 1 ∧ (cpu.step bus).cpu.activity = .running := by
  have hoff : (cpu.atCheck bus).cpu.ime = false := by
    refine (act_mask h.executes).1.trans ?_
    rw [h.masked, h.settled]
    rfl
  have hruns : (cpu.atCheck bus).cpu.activity = .running := by
    have hleaves : Instruction.ei.LeavesIn (cpu.atCheck bus).cpu.activity :=
      Core.act_activity h.executes
    generalize (cpu.atCheck bus).cpu.activity = a at hleaves ⊢
    cases hleaves with
    | running => rfl
  obtain ⟨henters, hstep⟩ := step_masked hoff
  exact ⟨henters, hstep, step_delay h.executes, step_running hruns⟩

/-- With a delay of one left, the next instruction decides. -/
theorem endsDelay_of_delay (hrun : cpu.activity = .running) (hd : cpu.eiDelay = 1) (bus : β) :
    ∃ i, EndsDelay cpu bus i := by
  have hready : Core.ready { cpu, bus } = true := by
    rw [Core.ready, hrun]
    rfl
  obtain ⟨i, hi⟩ : ∃ i, cpu.instruction? bus = some i := ⟨_, if_pos hready⟩
  have hmask : (cpu.atCheck bus).cpu.ime = i.imeAfter cpu.ime cpu.eiDelay := (act_mask hi).1
  have hleaves : i.LeavesIn (cpu.atCheck bus).cpu.activity := Core.act_activity hi
  have henabled (hdi : i ≠ .di) (hun : i ≠ .undefined) : (cpu.atCheck bus).cpu.ime = true := by
    rw [hmask, hd]
    cases i <;> first | exact absurd rfl hdi | exact absurd rfl hun | simp [Instruction.imeAfter]
  refine ⟨i, hi, henabled, hleaves.stopped_iff, ?_, step_eq_dispatch, ?_⟩
  · intro hdi hun
    have hgoes : (cpu.atCheck bus).cpu.activity ≠ .locked := by
      intro hlocked
      exact hun (hleaves.locked_iff.1 hlocked)
    rw [entersHandler_iff, henabled hdi hun]
    cases ha : (cpu.atCheck bus).cpu.activity with
    | running => simp
    | halted => simp
    | stopped => simp
    | locked => exact absurd ha hgoes
  · rintro rfl
    have hoff : (cpu.atCheck bus).cpu.ime = false := hmask
    obtain ⟨henters, hstep⟩ := step_masked hoff
    exact ⟨hoff, henters, hstep⟩

/-- **An EI takes effect with the instruction after it**, whatever happens to the bus in between. -/
theorem StartsDelay.endsDelay (h : StartsDelay cpu bus) (next : β) :
    ∃ i, EndsDelay (cpu.step bus).cpu next i := by
  obtain ⟨-, -, hdelay, hrun⟩ := h.leaves
  exact endsDelay_of_delay hrun hdelay next

/-- The CPU after steps on these buses. -/
def after (cpu : Cpu) (buses : List β) : Cpu := buses.foldl (fun cpu bus => (cpu.step bus).cpu) cpu

/-- Every one of these steps executes an EI. -/
def OnlyEnables (cpu : Cpu) : List β → Prop
  | [] => True
  | bus :: later => cpu.instruction? bus = some .ei ∧ OnlyEnables (cpu.step bus).cpu later

/-- Every EI starts the delay anew. -/
theorem OnlyEnables.delay {buses : List β} (h : OnlyEnables cpu buses) (hne : buses ≠ []) :
    (cpu.after buses).eiDelay = 1 := by
  induction buses generalizing cpu with
  | nil => exact absurd rfl hne
  | cons bus later ih =>
    obtain ⟨hei, hlater⟩ := h
    by_cases hend : later = []
    · subst hend
      exact step_delay hei
    · exact ih hlater hend

/-- **A run of EIs takes effect at the second one**: the first leaves interrupts disabled, and every
later one finds the delay of the one before it at its end. -/
theorem after_enables {buses : List β} (hmask : cpu.ime = false) (hset : cpu.eiDelay = 0)
    (h : OnlyEnables cpu buses) {last : β} (hlast : (cpu.after buses).instruction? last = some .ei) :
    ((cpu.after buses).atCheck last).cpu.ime = true ↔ buses ≠ [] := by
  have hat : ((cpu.after buses).atCheck last).cpu.ime =
      ((cpu.after buses).ime || (cpu.after buses).eiDelay == 1) :=
    (act_mask hlast).1
  rw [hat]
  by_cases hne : buses = []
  · subst hne
    have hfirst : cpu.after ([] : List β) = cpu := rfl
    simp [hfirst, hmask, hset]
  · simp [h.delay hne, hne]

/-- **A DI takes effect at once, and for good**: its own step enters no handler, and no later one does
before an instruction has asked for interrupts. -/
theorem masked_after_disable (h : cpu.instruction? bus = some .di) :
    cpu.entersHandler bus = false ∧ (cpu.step bus).cpu.ime = false ∧
      ∀ later : List β, Quiet ((cpu.step bus).cpu.executed later) →
        (cpu.step bus).cpu.Masked later := by
  obtain ⟨henters, hstep⟩ := step_masked (act_mask h).1
  refine ⟨henters, hstep, ?_⟩
  intro later hquiet
  exact masked_of_quiet later _ hstep (.inl ⟨step_delay h, hquiet⟩)

/-- **The timing of EI and DI**, on any buses. An EI that finds interrupts disabled, and no other EI
on its way, leaves them disabled for its own step; the next instruction ends with them enabled, unless
it is DI or hangs the CPU, and the check of its step services what is pending. Of several EIs in a row
the second takes effect. After a DI no handler is entered until a RETI, or an EI and an instruction
after it, has been executed. -/
theorem enable_disable_timing (h : Reachable β cpu) :
    cpu.eiDelay ≤ 1 ∧
      (∀ bus : β, StartsDelay cpu bus →
        cpu.entersHandler bus = false ∧ (cpu.step bus).cpu.ime = false ∧
          ∀ next : β, ∃ i, EndsDelay (cpu.step bus).cpu next i) ∧
      (∀ (buses : List β) (last : β), cpu.ime = false → cpu.eiDelay = 0 →
        OnlyEnables cpu buses → (cpu.after buses).instruction? last = some .ei →
          (((cpu.after buses).atCheck last).cpu.ime = true ↔ buses ≠ [])) ∧
      ∀ bus : β, cpu.instruction? bus = some .di →
        cpu.entersHandler bus = false ∧ (cpu.step bus).cpu.ime = false ∧
          ∀ later : List β, Quiet ((cpu.step bus).cpu.executed later) →
            (cpu.step bus).cpu.Masked later := by
  refine ⟨(reachable_settled h).delay_le, ?_, ?_, ?_⟩
  · intro bus hstarts
    obtain ⟨henters, hoff, -, -⟩ := hstarts.leaves
    exact ⟨henters, hoff, hstarts.endsDelay⟩
  · intro buses last hmask hset honly hlast
    exact after_enables hmask hset honly hlast
  · intro bus hdi
    exact masked_after_disable hdi

/-- **EI and HALT with a source pending**: the EI lets it wait, and the HALT does not come to wait for
it. -/
theorem enable_disable_timing_halt :
    Reachable FlatBus (afterBoot .mono true) ∧
      StartsDelay (afterBoot .mono true) (twoInstructions 0xFB 0x76) ∧
      (afterBoot .mono true).entersHandler (twoInstructions 0xFB 0x76) = false ∧
      (firstOfTwo 0xFB 0x76).cpu.instruction? (firstOfTwo 0xFB 0x76).bus = some .halt ∧
      (firstOfTwo 0xFB 0x76).cpu.entersHandler (firstOfTwo 0xFB 0x76).bus = true := by
  have hreach : Reachable FlatBus (afterBoot .mono true) := .afterBoot .mono true
  have hstarts : StartsDelay (afterBoot .mono true) (twoInstructions 0xFB 0x76) :=
    ⟨rfl, rfl, by decide +kernel⟩
  have hhalt : (firstOfTwo 0xFB 0x76).cpu.instruction? (firstOfTwo 0xFB 0x76).bus = some .halt := by
    decide +kernel
  obtain ⟨henters, -, hnext⟩ := (enable_disable_timing hreach).2.1 _ hstarts
  obtain ⟨i, hends⟩ := hnext (firstOfTwo 0xFB 0x76).bus
  obtain rfl : i = .halt := Option.some.inj (hends.executes.symm.trans hhalt)
  refine ⟨hreach, hstarts, henters, hhalt, (hends.enters nofun nofun).2 ⟨by decide +kernel, ?_⟩⟩
  intro hstopped
  cases hends.stopped hstopped

end Handheld.Cpu
