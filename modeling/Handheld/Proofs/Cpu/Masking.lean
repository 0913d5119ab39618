import Handheld.Cpu.FlatBus
import Handheld.Proofs.Cpu.Work
import Mathlib.Tactic.Common

/-!
# Interrupts inside a handler

Entering a handler clears the interrupt master enable, but not the delay that an EI has left behind.
If the instruction before the entry was itself an EI, the delay runs out inside the handler and
unmasks it again; DI, in contrast, clears both.

* `reachable_settled`: between steps the delay is at most one, and zero while the CPU waits.
* `masked_of_quiet`: without a pending delay a handler stays masked until it asks for interrupts.
* `masked_iff`: a handler stays masked exactly if the step that entered it did not execute an EI, or
  the handler starts with an instruction that cancels it.
* `second_enable_unmasks`: two EIs in a row break the mask on the first instruction of the handler.
-/

namespace Handheld.Cpu

open Handheld.Core (act_mask act_idle step_ime step_eiDelay)

variable {β : Type} [Bus β] {cpu : Cpu} {bus : β}

/-- **The CPUs that occur**: from power-on or from the end of the boot image, by steps on buses of a
kind. Between two steps the machine around the CPU may do anything to the bus. -/
inductive Reachable (β : Type) [Bus β] : Cpu → Prop where
  | powerOn : Reachable β {}
  | afterBoot (model : Model) (monoCartridge : Bool) : Reachable β (afterBoot model monoCartridge)
  | step {cpu : Cpu} (h : Reachable β cpu) (bus : β) : Reachable β (cpu.step bus).cpu

/-- The instruction that a step on the bus executes, if any. -/
def instruction? (cpu : Cpu) (bus : β) : Option Instruction := Core.instruction? { cpu, bus }

/-- True if a step on the bus ends with the entry into a handler. -/
def entersHandler (cpu : Cpu) (bus : β) : Bool := (Core.act { cpu, bus }).interrupted

/-- The instructions executed by steps on these buses, one after the other. -/
def executed (cpu : Cpu) : List β → List Instruction
  | [] => []
  | bus :: later => (cpu.instruction? bus).toList ++ executed (cpu.step bus).cpu later

/-- None of the steps on these buses enters a handler or ends with interrupts enabled. -/
def Masked (cpu : Cpu) : List β → Prop
  | [] => True
  | bus :: later =>
    cpu.entersHandler bus = false ∧ (cpu.step bus).cpu.ime = false ∧ Masked (cpu.step bus).cpu later

/-- The instructions do not ask for interrupts: there is no RETI, and no EI with an instruction
after it. -/
def Quiet (is : List Instruction) : Prop := .reti ∉ is ∧ .ei ∉ is.dropLast

theorem Quiet.tail {i : Instruction} {is : List Instruction} (h : Quiet (i :: is)) : Quiet is := by
  obtain ⟨hr, he⟩ := h
  refine ⟨?_, ?_⟩
  · intro hm
    exact hr (List.mem_cons_of_mem _ hm)
  · intro hm
    apply he
    cases is with
    | nil => cases hm
    | cons j is => exact List.mem_cons_of_mem _ hm

/-- After an EI nothing more is executed. -/
theorem Quiet.after_ei {is : List Instruction} (h : Quiet (.ei :: is)) : is = [] := by
  cases is with
  | nil => rfl
  | cons j is => exact absurd List.mem_cons_self h.2

/-- **The delay between two steps**: at most one instruction is left until an EI takes effect, and
none once the CPU waits. -/
structure Settled (cpu : Cpu) : Prop where
  delay_le : cpu.eiDelay ≤ 1
  waiting : cpu.activity = .halted ∨ cpu.activity = .stopped → cpu.eiDelay = 0

theorem eiDelayAfter_le {delay : Nat} (h : delay ≤ 1) (i : Instruction) :
    i.eiDelayAfter delay ≤ 1 := by
  cases i <;> simp only [Instruction.eiDelayAfter] <;> omega

theorem act_settled {c : Core β} (hs : Settled c.cpu) : Settled c.act.cpu := by
  cases hi : c.instruction? with
  | none =>
    rw [act_idle hi]
    exact hs
  | some i =>
    have hd := (act_mask hi).2
    have hle := hs.delay_le
    refine ⟨?_, ?_⟩
    · rw [hd]
      exact eiDelayAfter_le hle i
    · -- only HALT and STOP leave a waiting CPU, and they use up the delay
      intro hw
      rw [hd]
      rcases (Core.act_activity hi).waiting hw with rfl | rfl <;>
        simp only [Instruction.eiDelayAfter] <;> omega

theorem service_settled {c : Core β} (hs : Settled c.cpu) : Settled c.service.cpu := by
  obtain ⟨r, a, ha, hc⟩ := Core.service_cpu c
  rw [hc]
  refine ⟨hs.delay_le, ?_⟩
  intro hw
  rcases ha with rfl | ⟨rfl, -⟩
  · exact hs.waiting hw
  · simp at hw

theorem reachable_settled (h : Reachable β cpu) : Settled cpu := by
  induction h with
  | powerOn => exact ⟨Nat.zero_le _, fun _ => rfl⟩
  | afterBoot model monoCartridge => exact ⟨Nat.zero_le _, fun _ => rfl⟩
  | step _ bus ih => exact service_settled (act_settled ih)

theorem eiDelayAfter_eq {delay : Nat} (h : delay ≤ 1) {i : Instruction} (hu : i ≠ .undefined) :
    i.eiDelayAfter delay = if i = .ei then 1 else 0 := by
  have hz : delay - 1 = 0 := by omega
  cases i <;> first | exact absurd rfl hu | rfl | exact hz

/-- **The entry into a handler**: it starts masked and running. The delay is not cleared: it is what
the instruction before the entry has left. -/
theorem enters_handler (hs : Settled cpu) (h : cpu.entersHandler bus) :
    (cpu.step bus).cpu.ime = false ∧ (cpu.step bus).cpu.activity = .running ∧
      (cpu.step bus).cpu.eiDelay = if cpu.instruction? bus = some .ei then 1 else 0 := by
  set c : Core β := { cpu, bus }
  have hint : c.act.interrupted = true := h
  have hact : c.act.cpu.activity = .running ∨ c.act.cpu.activity = .halted := by
    simp only [Core.interrupted, Bool.and_eq_true, Bool.or_eq_true, beq_iff_eq] at hint
    exact hint.1.1
  have hime : c.step.cpu.ime = false := by rw [step_ime, hint, Bool.not_true, Bool.and_false]
  have hrun : c.step.cpu.activity = .running := by
    obtain ⟨r, hr⟩ := Core.dispatch_cpu (c.act.setActivity .running)
    rw [Core.step, Core.service_of_interrupted hint, hr]
    rfl
  refine ⟨hime, hrun, (step_eiDelay c).trans ?_⟩
  have hsame : cpu.instruction? bus = c.instruction? := rfl
  rw [hsame]
  cases hi : c.instruction? with
  | none =>
    -- an idle CPU can enter a handler only from HALT
    rw [act_idle hi] at hact ⊢
    have hw : c.cpu.activity = .halted := by
      rcases hact with ha | ha
      · simp [Core.instruction?, Core.ready, ha] at hi
      · exact ha
    exact hs.waiting (.inl hw)
  | some i =>
    have hu : i ≠ .undefined := by
      intro hu
      have hl := (Core.act_activity hi).locked_iff.mpr hu
      simp [hl] at hact
    rw [(act_mask hi).2, eiDelayAfter_eq hs.delay_le hu]
    simp only [Option.some.injEq]

/-- The first instruction of a handler lets a delayed EI take effect. -/
theorem not_masked_of_delay (hd : cpu.eiDelay = 1) {i : Instruction}
    (hi : cpu.instruction? bus = some i) (hdi : i ≠ .di) (hun : i ≠ .undefined) :
    ¬ cpu.Masked [bus] := by
  rintro ⟨hent, hime, -⟩
  have hon : i.imeAfter cpu.ime cpu.eiDelay = true := by
    rw [hd]
    cases i <;> first | exact absurd rfl hdi | exact absurd rfl hun | simp [Instruction.imeAfter]
  have hset : (Core.act { cpu, bus }).cpu.ime = true := (act_mask hi).1.trans hon
  have hnot : (Core.act { cpu, bus }).interrupted = false := hent
  have hstep : (cpu.step bus).cpu.ime = _ := step_ime { cpu, bus }
  rw [hset, hnot, hime] at hstep
  cases hstep

/-- A step that does not ask for interrupts keeps the mask. -/
theorem step_masked (hime : (Core.act { cpu, bus }).cpu.ime = false) :
    cpu.entersHandler bus = false ∧ (cpu.step bus).cpu.ime = false := by
  refine ⟨?_, ?_⟩
  · simp [entersHandler, Core.interrupted, hime]
  · have hstep : (cpu.step bus).cpu.ime = _ := step_ime { cpu, bus }
    rw [hstep, hime, Bool.false_and]

/-- The delay after a step is that of its instruction; the interrupt check leaves it alone. -/
theorem step_delay {i : Instruction} (hi : cpu.instruction? bus = some i) :
    (cpu.step bus).cpu.eiDelay = i.eiDelayAfter cpu.eiDelay :=
  (step_eiDelay { cpu, bus }).trans (act_mask hi).2

theorem step_delay_idle (hi : cpu.instruction? bus = none) :
    (cpu.step bus).cpu.eiDelay = cpu.eiDelay :=
  (step_eiDelay { cpu, bus }).trans (congrArg eiDelay (act_idle hi))

/-- **A handler without a delay stays masked**, as long as it does not ask for interrupts. The
second case is a handler that executes nothing any more: its delay does not matter. -/
theorem masked_of_quiet (later : List β) (cpu : Cpu) (hime : cpu.ime = false)
    (hq : cpu.eiDelay = 0 ∧ Quiet (cpu.executed later) ∨ cpu.executed later = []) :
    cpu.Masked later := by
  induction later generalizing cpu with
  | nil => trivial
  | cons bus later ih =>
    cases hi : cpu.instruction? bus with
    | none =>
      have hoff : (Core.act { cpu, bus }).cpu.ime = false := (congrArg ime (act_idle hi)).trans hime
      obtain ⟨hent, hstep⟩ := step_masked hoff
      refine ⟨hent, hstep, ih _ hstep ?_⟩
      simp only [executed, hi, Option.toList_none, List.nil_append] at hq
      exact hq.imp_left fun h => ⟨(step_delay_idle hi).trans h.1, h.2⟩
    | some i =>
      simp only [executed, hi, Option.toList_some, List.singleton_append, reduceCtorEq,
        or_false] at hq
      obtain ⟨hd, hq⟩ := hq
      have hreti : i ≠ .reti := by
        rintro rfl
        exact hq.1 List.mem_cons_self
      have hoff : i.imeAfter cpu.ime cpu.eiDelay = false := by
        rw [hime, hd]
        cases i <;> first | exact absurd rfl hreti | rfl
      obtain ⟨hent, hstep⟩ := step_masked ((act_mask hi).1.trans hoff)
      refine ⟨hent, hstep, ih _ hstep ?_⟩
      -- an EI starts a new delay, but nothing may be executed after it
      by_cases hei : i = .ei
      · subst hei
        exact .inr hq.after_ei
      · refine .inl ⟨?_, hq.tail⟩
        rw [step_delay hi, hd]
        cases i <;> first | exact absurd rfl hei | rfl

/-- The interrupt check does not reach a CPU that hangs. -/
theorem step_locked (h : (Core.act { cpu, bus }).cpu.activity = .locked) :
    (cpu.step bus).cpu.activity = .locked := by
  obtain ⟨r, a, ha, hc⟩ := Core.service_cpu (Core.act { cpu, bus })
  have hs : (cpu.step bus).cpu = _ := hc
  rw [hs]
  rcases ha with rfl | ⟨-, hn⟩
  · exact h
  · exact absurd h hn

/-- A CPU that hangs executes nothing any more. -/
theorem executed_of_locked (later : List β) (cpu : Cpu) (h : cpu.activity = .locked) :
    cpu.executed later = [] := by
  induction later generalizing cpu with
  | nil => rfl
  | cons bus later ih =>
    have hi : cpu.instruction? bus = none := if_neg (by simp [Core.ready, h])
    simp only [executed, hi, Option.toList_none, List.nil_append]
    exact ih _ (step_locked ((congrArg activity (act_idle hi)).trans h))

/-- A delay that DI clears, or that a hanging CPU never uses up, does no harm. -/
theorem masked_of_cancel {later : List β} (hime : cpu.ime = false)
    (hi : cpu.instruction? bus = some .di ∨ cpu.instruction? bus = some .undefined)
    (hq : Quiet (cpu.executed (bus :: later))) : cpu.Masked (bus :: later) := by
  rcases hi with hi | hi
  · obtain ⟨hent, hstep⟩ := step_masked (act_mask hi).1
    simp only [executed, hi, Option.toList_some, List.singleton_append] at hq
    exact ⟨hent, hstep, masked_of_quiet later _ hstep (.inl ⟨step_delay hi, hq.tail⟩)⟩
  · obtain ⟨hent, hstep⟩ := step_masked ((act_mask hi).1.trans hime)
    have hlock := step_locked ((Core.act_activity hi).locked_iff.mpr rfl)
    exact ⟨hent, hstep, masked_of_quiet later _ hstep (.inr (executed_of_locked later _ hlock))⟩

/-- **A handler stays masked exactly if no EI takes effect in it unasked**: `cpu` enters it with a
step on `bus`, and `first` is the bus of the step after that. The delay of an EI that the entering
step has executed is left over; only DI, a hanging CPU and RETI make it irrelevant. -/
theorem masked_iff (h : Reachable β cpu) (hent : cpu.entersHandler bus) (first : β) :
    (∀ later : List β,
        Quiet ((cpu.step bus).cpu.executed (first :: later)) →
        (cpu.step bus).cpu.Masked (first :: later)) ↔
      (cpu.instruction? bus = some .ei →
        (cpu.step bus).cpu.instruction? first ∈ [some .di, some .undefined, some .reti]) := by
  obtain ⟨hime, hrun, hdelay⟩ := enters_handler (reachable_settled h) hent
  set handler := (cpu.step bus).cpu
  obtain ⟨i, hi⟩ : ∃ i, handler.instruction? first = some i :=
    ⟨_, if_pos (by simp [Core.ready, hrun])⟩
  have hexec (later : List β) :
      handler.executed (first :: later) = i :: (handler.step first).cpu.executed later := by
    simp only [executed, hi, Option.toList_some, List.singleton_append]
  constructor
  · intro hmask hei
    rw [if_pos hei] at hdelay
    by_contra hnot
    simp only [hi, List.mem_cons, Option.some.injEq, List.not_mem_nil, or_false, not_or] at hnot
    obtain ⟨hdi, hun, hreti⟩ := hnot
    -- a single step is a quiet run, whatever it executes
    have hq : Quiet (handler.executed [first]) := by
      rw [hexec]
      exact ⟨fun hm => hreti (List.mem_singleton.mp hm).symm, List.not_mem_nil⟩
    exact not_masked_of_delay hdelay hi hdi hun (hmask [] hq)
  · intro hcancel later hq
    by_cases hei : cpu.instruction? bus = some .ei
    · have hc := hcancel hei
      simp only [List.mem_cons, List.not_mem_nil, or_false] at hc
      rcases hc with hc | hc | hc
      · exact masked_of_cancel hime (.inl hc) hq
      · exact masked_of_cancel hime (.inr hc) hq
      · rw [hexec, Option.some.inj (hi.symm.trans hc)] at hq
        exact absurd List.mem_cons_self hq.1
    · rw [if_neg hei] at hdelay
      exact masked_of_quiet _ _ hime (.inl ⟨hdelay, hq⟩)

/-- A flat bus with two instructions at the entry point and NOPs elsewhere; VBlank and STAT are
requested and enabled. -/
def twoInstructions (first second : UInt8) : FlatBus :=
  (({ interrupts := { requested := 3, enabled := 3 } } : FlatBus).poke 0x100 first).poke 0x101 second

/-- The first of the two instructions, as executed from the end of the boot image. -/
def firstOfTwo (first second : UInt8) : Core FlatBus :=
  (afterBoot .mono true).step (twoInstructions first second)

/-- The step that executes the second. -/
def secondOfTwo (first second : UInt8) : Core FlatBus :=
  (firstOfTwo first second).cpu.step (firstOfTwo first second).bus

theorem reachable_firstOfTwo (first second : UInt8) :
    Reachable FlatBus (firstOfTwo first second).cpu :=
  .step (.afterBoot .mono true) _

/-- After EI and NOP the handler stays masked. -/
theorem masked_after_nop :
    (firstOfTwo 0xFB 0x00).cpu.entersHandler (firstOfTwo 0xFB 0x00).bus = true ∧
      ∀ later : List FlatBus,
        Quiet ((secondOfTwo 0xFB 0x00).cpu.executed ((secondOfTwo 0xFB 0x00).bus :: later)) →
        (secondOfTwo 0xFB 0x00).cpu.Masked ((secondOfTwo 0xFB 0x00).bus :: later) := by
  have hent : (firstOfTwo 0xFB 0x00).cpu.entersHandler (firstOfTwo 0xFB 0x00).bus = true := by
    decide +kernel
  have hnop : (firstOfTwo 0xFB 0x00).cpu.instruction? (firstOfTwo 0xFB 0x00).bus ≠ some .ei := by
    decide +kernel
  exact ⟨hent, (masked_iff (reachable_firstOfTwo _ _) hent _).mpr fun h => absurd h hnop⟩

/-- **Two EIs in a row**: the second is executed by the step that enters the handler, and the
handler's first instruction, a NOP, ends with the entry into the next handler. -/
theorem second_enable_unmasks :
    ¬ ∀ (cpu : Cpu) (bus : FlatBus) (later : List FlatBus),
        Reachable FlatBus cpu → cpu.entersHandler bus →
        Quiet ((cpu.step bus).cpu.executed later) → (cpu.step bus).cpu.Masked later := by
  intro hclaim
  have hent : (firstOfTwo 0xFB 0xFB).cpu.entersHandler (firstOfTwo 0xFB 0xFB).bus = true := by
    decide +kernel
  have hexec : (secondOfTwo 0xFB 0xFB).cpu.executed [(secondOfTwo 0xFB 0xFB).bus] = [.nop] := by
    decide +kernel
  have hq : Quiet ((secondOfTwo 0xFB 0xFB).cpu.executed [(secondOfTwo 0xFB 0xFB).bus]) := by
    rw [hexec]
    exact ⟨by decide, by decide⟩
  have hagain :
      (secondOfTwo 0xFB 0xFB).cpu.entersHandler (secondOfTwo 0xFB 0xFB).bus = true := by
    decide +kernel
  have hmask := hclaim _ _ _ (reachable_firstOfTwo 0xFB 0xFB) hent hq
  exact absurd hagain (by rw [Bool.not_eq_true]; exact hmask.1)

end Handheld.Cpu
