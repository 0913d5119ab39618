import Handheld.Cpu.Traced
import Handheld.Proofs.Cpu.Forgetting

/-!
# A traced bus is transparent

A CPU on a traced bus does what it does on the bus inside, and the trace holds one tick for each bus
cycle.

* `traced_shows`: a traced bus shows the bus inside.
* `untrace_step`: forgetting the trace after a step is the step without the trace.
* `Work.spends`: the ticks recorded are the bus cycles of the work.
-/

namespace Handheld.Core

variable {β : Type} {n : Nat}

/-- The same CPU on the bus inside. -/
def untrace (c : Core (Traced β)) : Core β := ⟨c.cpu, c.bus.bus, c.dots, c.events⟩

/-- The bus cycles recorded so far. -/
def ticks (c : Core (Traced β)) : Nat := c.bus.accesses.count .tick

/-- **Spending bus cycles**: between `c` and `d` lie `n` recorded ticks, of four dots each. -/
def Spends (n : Nat) (c d : Core (Traced β)) : Prop :=
  d.ticks = c.ticks + n ∧ d.dots = c.dots + 4 * n

theorem Spends.trans {m : Nat} {c d e : Core (Traced β)} (h : Spends m c d) (h' : Spends n d e) :
    Spends (m + n) c e := by
  obtain ⟨ht, hd⟩ := h
  obtain ⟨ht', hd'⟩ := h'
  exact ⟨by omega, by omega⟩

variable [Bus β]

theorem traced_shows : Shows (Traced.bus : Traced β → β) where
  read8 _ _ := rfl
  write8 _ _ _ := rfl
  tick _ := rfl
  interrupts _ := rfl
  setInterrupts _ _ := rfl
  clearDivider _ := rfl
  switchSpeed _ := rfl
  buttonHeld _ := rfl

theorem untrace_fetch8 (c : Core (Traced β)) :
    c.untrace.fetch8 = (c.fetch8.1, c.fetch8.2.untrace) :=
  seen_fetch8 traced_shows c

theorem untrace_fetchOpcode (c : Core (Traced β)) :
    c.untrace.fetchOpcode = (c.fetchOpcode.1, c.fetchOpcode.2.untrace) :=
  seen_fetchOpcode traced_shows c

theorem untrace_decoded (c : Core (Traced β)) : c.untrace.decoded = c.decoded :=
  seen_decoded traced_shows c

theorem untrace_fetched (c : Core (Traced β)) : c.untrace.fetched = c.fetched.untrace :=
  seen_fetched traced_shows c

theorem untrace_act (c : Core (Traced β)) : c.act.untrace = c.untrace.act :=
  seen_act traced_shows c

/-- **The CPU cannot tell a traced bus from the bus inside.** -/
theorem untrace_step (c : Core (Traced β)) : c.step.untrace = c.untrace.step :=
  seen_step traced_shows c

theorem ticks_tick (c : Core (Traced β)) : c.tick.ticks = c.ticks + 1 := by
  have ha : c.tick.bus.accesses = c.bus.accesses ++ [Access.tick] := rfl
  rw [ticks, ha, List.count_append]
  rfl

theorem ticks_read (c : Core (Traced β)) (addr : UInt16) : (c.read addr).2.ticks = c.ticks + 1 := by
  have ha : (c.read addr).2.bus.accesses =
      c.bus.accesses ++ [Access.read addr (c.read addr).1] ++ [Access.tick] := rfl
  rw [ticks, ha, List.count_append, List.count_append]
  rfl

theorem ticks_write (c : Core (Traced β)) (addr : UInt16) (v : UInt8) :
    (c.write addr v).ticks = c.ticks + 1 := by
  have ha : (c.write addr v).bus.accesses =
      c.bus.accesses ++ [Access.write addr v] ++ [Access.tick] := rfl
  rw [ticks, ha, List.count_append, List.count_append]
  rfl

/-- Work spends the bus cycles that it counts, if the bus takes four dots for each. -/
theorem Work.spends (hbus : ∀ b : β, (Bus.tick b).value.1 = 4) {c d : Core (Traced β)}
    (h : Work n c d) : Spends n c d := by
  have hone (e : Core (Traced β)) (b : β) : e.dots + (Bus.tick b).value.1 = e.dots + 4 * 1 := by
    rw [hbus]
  induction h with
  | start c => exact ⟨rfl, rfl⟩
  | modify _ f ih => exact ih
  | tick _ ih => exact ih.trans ⟨ticks_tick _, hone _ _⟩
  | read _ addr ih => exact ih.trans ⟨ticks_read _ addr, hone _ _⟩
  | write _ addr v ih => exact ih.trans ⟨ticks_write _ addr v, hone _ _⟩

end Handheld.Core
