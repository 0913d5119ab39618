import Handheld.Proofs.Cpu.Forgetting
import Handheld.Proofs.Cpu.Invariant

/-!
# What a step did to the bus

A bus that remembers every operation, each with the bus before it. The CPU cannot tell it from the
bus it remembers, so its memory is what the CPU does in a step.

* `Deed`: an operation on the bus.
* `Core.deeds`: the operations of a step, in order.
* `deeds_step`: they lead from the bus before the step to the one after it.
* `step_acknowledges`: at most one of them acknowledges an interrupt, whose handler is then entered.
-/

namespace Handheld

/-- What a CPU does to its bus. -/
inductive Deed where
  | read (addr : UInt16)
  | write (addr : UInt16) (v : UInt8)
  | tick
  | setInterrupts (i : Interrupts)
  | clearDivider
  | switchSpeed

/-- The operation that acknowledges an interrupt. -/
def Deed.acknowledges : Deed → Bool
  | .setInterrupts _ => true
  | _ => false

variable {β : Type} [Bus β]

/-- The bus after an operation. -/
def Deed.perform (bus : β) : Deed → β
  | .read addr => (Bus.read8 bus addr).2
  | .write addr v => (Bus.write8 bus addr v).value
  | .tick => (Bus.tick bus).value.2
  | .setInterrupts i => Bus.setInterrupts bus i
  | .clearDivider => Bus.clearDivider bus
  | .switchSpeed => (Bus.switchSpeed bus).value.2

/-- **Operations that lead from a bus to another**, each with the bus that it found. -/
inductive Deed.Leads (b : β) : List (β × Deed) → β → Prop where
  | start : Deed.Leads b [] b
  | deed {l : List (β × Deed)} {d : β} (h : Deed.Leads b l d) (e : Deed) :
      Deed.Leads b (l ++ [(d, e)]) (e.perform d)

/-- A property that changes along the way is changed by one of the operations. -/
theorem Deed.Leads.exists_step {P : β → Prop} {b d : β} {l : List (β × Deed)}
    (h : Deed.Leads b l d) (hb : P b) (hd : ¬ P d) : ∃ e ∈ l, P e.1 ∧ ¬ P (e.2.perform e.1) := by
  induction h with
  | start => exact absurd hb hd
  | @deed l d _ e ih =>
    by_cases hp : P d
    · exact ⟨(d, e), List.mem_append_right _ (.head _), hp, hd⟩
    · obtain ⟨x, hx, hsteps⟩ := ih hp
      exact ⟨x, List.mem_append_left _ hx, hsteps⟩

structure History (β : Type) where
  bus : β
  /-- What happened so far, oldest first. -/
  past : List (β × Deed) := []

namespace History

/-- The same bus after one more operation. -/
def after (h : History β) (e : Deed) (bus : β) : History β := ⟨bus, h.past ++ [(h.bus, e)]⟩

instance : Bus (History β) where
  read8 h addr := ((Bus.read8 h.bus addr).1, h.after (.read addr) (Bus.read8 h.bus addr).2)
  write8 h addr v := h.after (.write addr v) <$> Bus.write8 h.bus addr v
  tick h := (fun r => (r.1, h.after .tick r.2)) <$> Bus.tick h.bus
  interrupts h := Bus.interrupts h.bus
  setInterrupts h i := h.after (.setInterrupts i) (Bus.setInterrupts h.bus i)
  clearDivider h := h.after .clearDivider (Bus.clearDivider h.bus)
  switchSpeed h := (fun r => (r.1, h.after .switchSpeed r.2)) <$> Bus.switchSpeed h.bus
  buttonHeld h := Bus.buttonHeld h.bus

/-- A bus that remembers answers as the bus inside. -/
theorem shows : Shows (History.bus : History β → β) where
  read8 _ _ := rfl
  write8 _ _ _ := rfl
  tick _ := rfl
  interrupts _ := rfl
  setInterrupts _ _ := rfl
  clearDivider _ := rfl
  switchSpeed _ := rfl
  buttonHeld _ := rfl

end History

namespace Core

/-- The same CPU on a bus that starts to remember. -/
def remembering (c : Core β) : Core (History β) := ⟨c.cpu, ⟨c.bus, []⟩, c.dots, c.events⟩

/-- The operations of a step. -/
def deeds (c : Core β) : List (β × Deed) := c.remembering.step.bus.past

/-- Remembering does not change the step. -/
theorem remembering_step (c : Core β) : c.remembering.step.seen History.bus = c.step :=
  seen_step History.shows c.remembering

/-- Every access of the CPU is remembered. -/
theorem leads_kept (b : β) : Kept fun c : Core (History β) => Deed.Leads b c.bus.past c.bus.bus where
  withCpu h _ := h
  instruction h _ _ _ _ := h
  locked h _ _ := h
  tick h := h.deed .tick
  read h addr := h.deed (.read addr)
  write h addr v := h.deed (.write addr v)
  clear {c} h s := h.deed (.setInterrupts ((Bus.interrupts c.bus.bus).clear s))
  switchSpeed h := h.deed .switchSpeed
  clearDivider h := h.deed .clearDivider

/-- **The operations of a step lead from the bus before it to the bus after it.** -/
theorem deeds_step (c : Core β) : Deed.Leads c.bus c.deeds c.step.bus := by
  have hbus : c.step.bus = c.remembering.step.bus.bus :=
    congrArg Core.bus (remembering_step c).symm
  rw [hbus]
  rcases waits_or_acts c.remembering with ⟨ha, hb⟩ | hacts
  · rw [deeds, step_stopped ha hb]
    exact .start
  · exact step_keeps (leads_kept c.bus) .start hacts

/-- The acknowledgements remembered, each with the bus that it found. -/
def acknowledged (c : Core (History β)) : List (β × Deed) :=
  c.bus.past.filter fun e => e.2.acknowledges

omit [Bus β] in
theorem acknowledged_after (c : Core (History β)) {e : Deed} (he : e.acknowledges = false)
    (bus : β) : ({ c with bus := c.bus.after e bus } : Core (History β)).acknowledged =
      c.acknowledged := by
  simp only [acknowledged, History.after, List.filter_append, List.filter_cons, List.filter_nil,
    he, Bool.false_eq_true, if_false, List.append_nil]

/-- Instructions acknowledge nothing. -/
theorem acknowledged_kept (l : List (β × Deed)) :
    KeptByInstructions fun c : Core (History β) => c.acknowledged = l where
  withCpu h _ := h
  instruction h _ _ _ _ := h
  locked h _ _ := h
  tick {c} h := (acknowledged_after c (e := .tick) rfl _).trans h
  read {c} h addr := (acknowledged_after c (e := .read addr) rfl _).trans h
  write {c} h addr v := (acknowledged_after c (e := .write addr v) rfl _).trans h
  switchSpeed {c} h := (acknowledged_after c (e := .switchSpeed) rfl _).trans h
  clearDivider {c} h := (acknowledged_after c (e := .clearDivider) rfl _).trans h

/-- What may be acknowledged on the way to a CPU: nothing, or the highest source that the
acknowledgement found pending, whose handler the CPU then enters with the interrupts disabled. -/
def AcknowledgesOne (l : List (β × Deed)) (cpu : Cpu) : Prop :=
  l = [] ∨ ∃ bus s, (Bus.interrupts bus).highest? = some s ∧
    l = [(bus, .setInterrupts ((Bus.interrupts bus).clear s))] ∧
    cpu.registers.pc = s.vector ∧ cpu.ime = false

theorem dispatch_acknowledges {c : Core (History β)} (h : c.acknowledged = []) :
    AcknowledgesOne c.dispatch.acknowledged c.dispatch.cpu := by
  obtain ⟨r, hcpu⟩ := dispatch_cpu c
  have hime : c.dispatch.cpu.ime = false := by rw [hcpu]
  -- the first push comes before the acknowledgement, the second one after it
  let d := (c.setIME false).tick.tick.pushByte (highByte c.registers.pc)
  have hd : d.acknowledged = [] :=
    ((Work.start _).tick.tick.pushByte _).keeps (acknowledged_kept []).byCycles h
  have hrest : c.dispatch.acknowledged = d.acknowledge.2.acknowledged :=
    (((Work.start d.acknowledge.2).pushByte (lowByte c.registers.pc)).setPC d.acknowledge.1).tick.keeps
      (acknowledged_kept _).byCycles rfl
  have hpc : c.dispatch.cpu.registers.pc = d.acknowledge.1 := rfl
  rw [AcknowledgesOne, hrest, hpc]
  unfold acknowledge
  simp only
  split
  · rename_i s hs
    refine .inr ⟨d.bus.bus, s, hs, ?_, rfl, hime⟩
    have hack : List.filter (fun e => e.2.acknowledges) d.bus.past = [] := hd
    simp only [acknowledged, Bus.setInterrupts, History.after, List.filter_append, hack]
    rfl
  · exact .inl hd

/-- **A step acknowledges at most one interrupt**, and enters the handler of the one that it
acknowledges. -/
theorem step_acknowledges (c : Core β) :
    AcknowledgesOne (c.deeds.filter fun e => e.2.acknowledges) c.step.cpu := by
  have hcpu : c.step.cpu = c.remembering.step.cpu := congrArg Core.cpu (remembering_step c).symm
  rw [hcpu]
  show AcknowledgesOne c.remembering.step.acknowledged c.remembering.step.cpu
  rcases waits_or_acts c.remembering with ⟨ha, hb⟩ | hacts
  · rw [step_stopped ha hb]
    exact .inl rfl
  · have hact : c.remembering.act.acknowledged = [] :=
      act_keeps (acknowledged_kept []).byCycles rfl hacts
    rw [step]
    by_cases hint : c.remembering.act.interrupted
    · rw [service_of_interrupted hint]
      exact dispatch_acknowledges hact
    · rcases service_of_not_interrupted hint with hs | ⟨hs, -⟩ <;> rw [hs] <;> exact .inl hact

end Core

end Handheld
